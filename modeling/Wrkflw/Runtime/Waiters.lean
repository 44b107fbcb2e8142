import Wrkflw.Engine.State
import Mathlib.Logic.Function.Basic
import Mathlib.Data.List.Induction

/-!
# The driver's message waiters

`syncMsgWaiters`, `findMessageWaiter` and the routing of `DeliverMessage` (`runtime/processdriver_waiters.go`,
`processdriver_message.go`, `event_start.go`), with `MessageWaiters` and `SignalWaiters` of an instance
(`engine/state_waiters.go`, `state_arms.go`). The table holds one instance for each pair of a message and a key.

* `msgWaiters` : the table after any sequence of syncs;
* `msgWaiters_eq` : what is found under a pair is the instance that listed it last, if it lists it still.
-/

namespace Wrkflw

/-- A message and the key it is correlated by; also the key of the driver's table. -/
structure MessageWaiter where
  name : String
  correlationKey : String
  deriving DecidableEq, Repr

def messageWaitersOf (arms : List TriggerMatch) : List MessageWaiter :=
  (arms.filter (fun m => m.message != "")).map (fun m => ⟨m.message, m.messageKey⟩)

def signalNamesOf (arms : List TriggerMatch) : List String := (arms.filter (fun m => m.signal != "")).map (·.signal)

namespace InstanceState
variable (s : InstanceState)

/-- Every message the instance can be woken by. -/
def messageWaiters : List MessageWaiter :=
  (s.tokens.filter (fun t => t.awaitMessage != "")).map (fun t => ⟨t.awaitMessage, t.awaitMessageKey⟩) ++
    messageWaitersOf (s.boundaries.map (·.toTriggerMatch)) ++ messageWaitersOf (s.armedEvents.map (·.toTriggerMatch)) ++
    messageWaitersOf (s.eventTriggeredSubprocesses.map (·.toTriggerMatch))

/-- Every signal the instance can be woken by. -/
def signalWaiters : List String :=
  (s.tokens.filter (fun t => t.awaitSignal != "")).map (·.awaitSignal) ++
    signalNamesOf (s.boundaries.map (·.toTriggerMatch)) ++ signalNamesOf (s.armedEvents.map (·.toTriggerMatch)) ++
    signalNamesOf (s.eventTriggeredSubprocesses.map (·.toTriggerMatch))

/-- The instance lives and can be woken by the pair. -/
def awaits (k : MessageWaiter) : Bool := !s.status.isTerminal && s.messageWaiters.contains k

end InstanceState

theorem messageWaitersOf_name {arms : List TriggerMatch} {k : MessageWaiter} (h : k ∈ messageWaitersOf arms) :
    k.name ≠ "" := by
  obtain ⟨m, hm, rfl⟩ := List.mem_map.mp h
  simpa using (List.mem_filter.mp hm).2

/-- Nobody waits for a message without a name. -/
theorem awaits_name {s : InstanceState} {k : MessageWaiter} (h : s.awaits k = true) : k.name ≠ "" := by
  unfold InstanceState.awaits at h
  rw [Bool.and_eq_true, List.contains_iff_mem] at h
  have hmem := h.2
  unfold InstanceState.messageWaiters at hmem
  rcases List.mem_append.mp hmem with hmem | hmem
  · rcases List.mem_append.mp hmem with hmem | hmem
    · rcases List.mem_append.mp hmem with hmem | hmem
      · obtain ⟨t, ht, rfl⟩ := List.mem_map.mp hmem
        simpa using (List.mem_filter.mp ht).2
      · exact messageWaitersOf_name hmem
    · exact messageWaitersOf_name hmem
  · exact messageWaitersOf_name hmem

/-! ## The table -/

/-- `msgWaiters`. -/
abbrev MsgWaiters := MessageWaiter → Option String

/-- The entries of the instance go, and those of the pairs it awaits are written. -/
def syncMsgWaiters (table : MsgWaiters) (st : InstanceState) : MsgWaiters :=
  let cleared : MsgWaiters := fun k => if table k = some st.instanceID then none else table k
  if st.status.isTerminal then cleared
  else st.messageWaiters.foldl (fun t w => Function.update t w (some st.instanceID)) cleared

def findMessageWaiter (table : MsgWaiters) (name correlationKey : String) : Option String := table ⟨name, correlationKey⟩

/-- The table after the syncs, from none. -/
def msgWaiters (syncs : List InstanceState) : MsgWaiters := syncs.foldl syncMsgWaiters (fun _ => none)

theorem foldl_update {α β : Type} [DecidableEq α] (keys : List α) (v : β) (t : α → β) (k : α) :
    keys.foldl (fun t w => Function.update t w v) t k = if k ∈ keys then v else t k := by
  induction keys generalizing t with
  | nil => simp
  | cons a keys ih =>
    rw [List.foldl_cons, ih]
    by_cases hk : k = a
    · subst hk
      simp
    · rw [Function.update_of_ne hk]
      simp [hk]

/-- What a sync leaves under a pair. -/
theorem syncMsgWaiters_eq (table : MsgWaiters) (st : InstanceState) (k : MessageWaiter) :
    syncMsgWaiters table st k = if st.awaits k then some st.instanceID
      else if table k = some st.instanceID then none else table k := by
  unfold syncMsgWaiters InstanceState.awaits
  cases hst : st.status.isTerminal with
  | true => simp
  | false =>
    rw [if_neg (by simp), foldl_update]
    simp

/-! ## What was synced -/

/-- The latest synced state of an instance. -/
def latestSync (syncs : List InstanceState) (id : String) : Option InstanceState :=
  syncs.reverse.find? (fun st => st.instanceID == id)

/-- The instance awaits the pair in its latest synced state. -/
def AwaitsNow (syncs : List InstanceState) (id : String) (k : MessageWaiter) : Prop :=
  ∃ st, latestSync syncs id = some st ∧ st.awaits k = true

/-- The instance that was the last to be synced with the pair among what it awaits. -/
def lastLister (syncs : List InstanceState) (k : MessageWaiter) : Option String :=
  (syncs.reverse.find? (fun st => st.awaits k)).map (·.instanceID)

section Syncs
variable {syncs : List InstanceState} {st : InstanceState} {id : String} {k : MessageWaiter}

theorem latestSync_append : latestSync (syncs ++ [st]) id = if st.instanceID = id then some st else latestSync syncs id := by
  unfold latestSync
  rw [List.reverse_append, List.reverse_singleton, List.singleton_append, List.find?_cons]
  by_cases h : st.instanceID = id
  · rw [if_pos h, beq_iff_eq.mpr h]
  · rw [if_neg h, beq_eq_false_iff_ne.mpr h]

theorem lastLister_append :
    lastLister (syncs ++ [st]) k = if st.awaits k then some st.instanceID else lastLister syncs k := by
  unfold lastLister
  rw [List.reverse_append, List.reverse_singleton, List.singleton_append, List.find?_cons]
  cases st.awaits k <;> rfl

theorem awaitsNow_append : AwaitsNow (syncs ++ [st]) id k ↔
    (st.instanceID = id ∧ st.awaits k = true) ∨ (st.instanceID ≠ id ∧ AwaitsNow syncs id k) := by
  unfold AwaitsNow
  rw [latestSync_append]
  by_cases h : st.instanceID = id
  · simp [h]
  · simp [h]

/-- Under a pair stands the instance that was the last to list it, unless it was synced without it since. -/
theorem msgWaiters_eq (syncs : List InstanceState) (k : MessageWaiter) (id : String) :
    msgWaiters syncs k = some id ↔ lastLister syncs k = some id ∧ AwaitsNow syncs id k := by
  induction syncs using List.reverseRecOn with
  | nil => simp [msgWaiters, lastLister]
  | append_singleton syncs st ih =>
    have hsync : msgWaiters (syncs ++ [st]) k = syncMsgWaiters (msgWaiters syncs) st k := by
      unfold msgWaiters
      rw [List.foldl_append]
      rfl
    rw [hsync, syncMsgWaiters_eq, lastLister_append, awaitsNow_append]
    cases hst : st.awaits k with
    | true =>
      simp only [if_true]
      constructor
      · rintro h
        exact ⟨h, Or.inl ⟨Option.some.inj h, trivial⟩⟩
      · exact fun h => h.1
    | false =>
      simp only [Bool.false_eq_true, if_false, and_false, false_or]
      -- the table forgets the pair exactly when it stood for the instance that is synced
      by_cases hid : st.instanceID = id
      · subst hid
        simp only [ne_eq, not_true_eq_false, false_and, and_false, iff_false]
        intro h
        split at h
        · cases h
        · rename_i hne
          exact hne h
      · constructor
        · intro h
          split at h
          · cases h
          · exact ⟨(ih.mp h).1, hid, (ih.mp h).2⟩
        · rintro ⟨hlast, -, hnow⟩
          have htable := ih.mpr ⟨hlast, hnow⟩
          rw [if_neg, htable]
          rw [htable]
          intro he
          exact hid (Option.some.inj he).symm

end Syncs

/-! ## Delivering a message -/

/-- The newest version of each definition, in the order they were first seen. -/
def latestPerID (defs : List ProcessDefinition) : List ProcessDefinition :=
  defs.foldl (fun out d =>
    if out.any (fun o => o.id == d.id) then
      out.map (fun o => if o.id == d.id && decide (o.version < d.version) then d else o)
    else out ++ [d]) []

/-- The start event that waits for the message. -/
def messageStartNode (d : ProcessDefinition) (name : String) : Option String :=
  (d.startNodes.find? (fun n => match n.spec with | .startEvent e => e.messageName == name | _ => false)).map (·.id)

/-- Where `DeliverMessage` takes a message. -/
inductive MessageRoute where
  | noop
  | correlate (instanceID : String)
  | ambiguous
  | start (d : ProcessDefinition) (nodeID : String)

def deliverMessage (table : MsgWaiters) (defs : List ProcessDefinition) (name correlationKey : String) : MessageRoute :=
  if name == "" then .noop
  else match findMessageWaiter table name correlationKey with
    | some instanceID => .correlate instanceID
    | none =>
      match (latestPerID defs).filterMap (fun d => (messageStartNode d name).map (fun n => (d, n))) with
      | [] => .noop
      | [(d, nodeID)] => .start d nodeID
      | _ => .ambiguous

end Wrkflw
