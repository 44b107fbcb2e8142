import Wrkflw.Store.TaskCache
import Wrkflw.Library.Runs

/-!
# Cached reads of tasks

A `Get` of the caching task store yields what the last returned `Upsert` of the task wrote, or something newer, in every
run in which no `Upsert` reaches the backing store while another call on the task has yet to cache what it read or wrote.
Where one does, the older value is cached over the newer one, and every later `Get` returns it.

* `CachedTasks.Settled` : what holds along such a run;
* `Settled.goOn`, `Settled.step` : one action of a call, and one step.
-/

namespace Wrkflw

/-- What the call is to cache. -/
def TaskCacheStage.held : TaskCacheStage → Option WrittenTask
  | .read w => some w
  | .wrote w => some w
  | _ => none

/-- A `Get` that is done did not go behind the write that had returned when it was called. -/
def TaskCacheCall.Fresh (c : TaskCacheCall) : Prop :=
  match c.op, c.stage with
  | .get _, .returned (some w) => c.floor ≤ w.number
  | .get _, .returned none => c.floor = 0
  | _, _ => True

namespace CachedTasks

/-- No call on the task has yet to cache what it read or wrote. -/
def clear (s : CachedTasks) (taskID : String) : Bool :=
  s.calls.all (fun c => c.op.taskID != taskID || c.stage.held.isNone)

/-- An `Upsert` writes where the task is clear, and leaves no older entry in the cache. -/
def inOrder (s : CachedTasks) : TaskCacheChoice → Bool
  | .goOn i ok =>
    match s.calls[i]? with
    | some c =>
      match c.op, c.stage with
      | .upsert t, .called => s.clear t.taskID
      | .upsert t, .wrote _ => ok || (s.cache t.taskID).isNone
      | _, _ => true
    | none => true
  | _ => true

variable {s s' : CachedTasks} {c : TaskCacheCall} {stage : TaskCacheStage} {ok : Bool} {taskID : String} {w : WrittenTask}

/-- What holds along a run in order. -/
structure Settled (s : CachedTasks) : Prop where
  numbered : ∀ id w, s.backing id = some w → w.number ≤ s.writes
  backing : ∀ id w, s.backing id = some w → s.settled id ≤ w.number
  absent : ∀ id, s.backing id = none → s.settled id = 0
  cache : ∀ id w, s.cache id = some w → s.settled id ≤ w.number
  held : ∀ c ∈ s.calls, ∀ w, c.stage.held = some w → s.backing c.op.taskID = some w
  floor : ∀ c ∈ s.calls, c.floor ≤ s.settled c.op.taskID
  fresh : ∀ c ∈ s.calls, c.Fresh

theorem settled_blank : Settled {} where
  numbered := fun _ _ h => by cases h
  backing := fun _ _ h => by cases h
  absent := fun _ _ => rfl
  cache := fun _ _ h => by cases h
  held := fun _ h => by cases h
  floor := fun _ h => by cases h
  fresh := fun _ h => by cases h

/-- A write that has returned is one of the writes. -/
theorem Settled.settled_le (h : s.Settled) (id : String) : s.settled id ≤ s.writes := by
  cases hb : s.backing id with
  | none => rw [h.absent id hb]; exact Nat.zero_le _
  | some w => exact (h.backing id w hb).trans (h.numbered id w hb)

/-- What an action does, but for the calls. -/
structure Keeps (s s' : CachedTasks) : Prop where
  numbered : ∀ id w, s'.backing id = some w → w.number ≤ s'.writes
  backing : ∀ id w, s'.backing id = some w → s'.settled id ≤ w.number
  absent : ∀ id, s'.backing id = none → s'.settled id = 0
  cache : ∀ id w, s'.cache id = some w → s'.settled id ≤ w.number
  held : ∀ c ∈ s.calls, ∀ w, c.stage.held = some w → s'.backing c.op.taskID = some w
  grows : ∀ id, s.settled id ≤ s'.settled id

theorem Settled.keeps (h : s.Settled) : Keeps s s :=
  ⟨h.numbered, h.backing, h.absent, h.cache, h.held, fun _ => le_rfl⟩

/-- The current value of the task may be cached. -/
theorem Settled.set (h : s.Settled) (hw : s.backing taskID = some w) : Keeps s (s.set taskID w ok) := by
  unfold CachedTasks.set
  split
  · refine ⟨h.numbered, h.backing, h.absent, fun id w' hc => ?_, h.held, fun _ => le_rfl⟩
    dsimp only at hc
    by_cases he : id = taskID
    · subst he
      rw [Function.update_self] at hc
      cases hc
      exact h.backing id w hw
    · rw [Function.update_of_ne he] at hc
      exact h.cache id w' hc
  · exact h.keeps

/-- A `Get` is fresh when it is done, and what it holds is the current value. -/
theorem Settled.get (h : s.Settled) (hc : c ∈ s.calls) (hop : c.op = .get taskID)
    (hget : s.get taskID c.stage ok = some (s', stage)) :
    Keeps s s' ∧ (∀ w, stage.held = some w → s'.backing taskID = some w) ∧
      ({ c with stage := stage } : TaskCacheCall).Fresh := by
  have hfloor : c.floor ≤ s.settled taskID := by
    have := h.floor c hc
    rw [hop] at this
    exact this
  unfold CachedTasks.get at hget
  unfold TaskCacheCall.Fresh
  dsimp only
  rw [hop]
  split at hget
  · split at hget
    · rename_i w hcached
      cases hget
      exact ⟨h.keeps, fun w hw => (by cases hw), hfloor.trans (h.cache taskID w hcached)⟩
    · cases hget
      exact ⟨h.keeps, fun w hw => (by cases hw), trivial⟩
  · split at hget
    · split at hget
      · rename_i w hw
        cases hget
        refine ⟨h.keeps, fun w' hw' => ?_, trivial⟩
        cases hw'
        exact hw
      · rename_i hnone
        cases hget
        refine ⟨h.keeps, fun w hw => (by cases hw), ?_⟩
        have hzero := h.absent taskID hnone
        omega
    · cases hget
      exact ⟨h.keeps, fun w hw => (by cases hw), trivial⟩
  · rename_i w hstage
    cases hget
    have hw : s.backing taskID = some w := by
      have := h.held c hc w (by rw [hstage]; rfl)
      rw [hop] at this
      exact this
    exact ⟨h.set hw, fun w' hw' => (by cases hw'), hfloor.trans (h.backing taskID w hw)⟩
  · cases hget

/-- An `Upsert` that writes where the task is clear makes its value the current one. -/
theorem Settled.write (h : s.Settled) {t : HumanTask} (hclear : s.clear t.taskID = true) :
    Keeps s { s with backing := Function.update s.backing t.taskID (some ⟨t, s.writes + 1⟩), writes := s.writes + 1 } where
  numbered := by
    intro id w hw
    dsimp only at hw
    by_cases he : id = t.taskID
    · subst he
      rw [Function.update_self] at hw
      cases hw
      exact le_rfl
    · rw [Function.update_of_ne he] at hw
      exact (h.numbered id w hw).trans (Nat.le_succ _)
  backing := by
    intro id w hw
    dsimp only at hw
    by_cases he : id = t.taskID
    · subst he
      rw [Function.update_self] at hw
      cases hw
      exact (h.settled_le _).trans (Nat.le_succ _)
    · rw [Function.update_of_ne he] at hw
      exact h.backing id w hw
  absent := by
    intro id hw
    dsimp only at hw
    by_cases he : id = t.taskID
    · subst he
      rw [Function.update_self] at hw
      cases hw
    · rw [Function.update_of_ne he] at hw
      exact h.absent id hw
  cache := h.cache
  held := by
    intro c hc w hw
    have hone := List.all_eq_true.mp hclear c hc
    rw [hw] at hone
    have hne : c.op.taskID ≠ t.taskID := by simpa using hone
    dsimp only
    rw [Function.update_of_ne hne]
    exact h.held c hc w hw
  grows := fun _ => le_rfl

/-- An `Upsert` that caches what it wrote leaves nothing older behind. -/
theorem Settled.settle (h : s.Settled) (hw : s.backing taskID = some w) (hset : ok = true ∨ s.cache taskID = none) :
    Keeps s { s.set taskID w ok with
      settled := Function.update s.settled taskID (max (s.settled taskID) w.number) } := by
  have hmax : max (s.settled taskID) w.number = w.number := Nat.max_eq_right (h.backing taskID w hw)
  have hkept : Keeps s (s.set taskID w ok) := h.set hw
  have hback : (s.set taskID w ok).backing = s.backing := by unfold CachedTasks.set; split <;> rfl
  have hsettled : (s.set taskID w ok).settled = s.settled := by unfold CachedTasks.set; split <;> rfl
  rw [hmax]
  refine ⟨hkept.numbered, fun id w' hw' => ?_, fun id hnone => ?_, fun id w' hc => ?_, hkept.held, fun id => ?_⟩
  · change (s.set taskID w ok).backing id = some w' at hw'
    rw [hback] at hw'
    dsimp only
    by_cases he : id = taskID
    · subst he
      rw [hw] at hw'
      cases hw'
      rw [Function.update_self]
    · rw [Function.update_of_ne he]
      exact h.backing id w' hw'
  · change (s.set taskID w ok).backing id = none at hnone
    rw [hback] at hnone
    dsimp only
    by_cases he : id = taskID
    · subst he
      rw [hw] at hnone
      cases hnone
    · rw [Function.update_of_ne he]
      exact h.absent id hnone
  · change (s.set taskID w ok).cache id = some w' at hc
    dsimp only
    by_cases he : id = taskID
    · subst he
      rw [Function.update_self]
      have hcached : (s.set id w ok).cache id = some w ∨ (s.set id w ok).cache id = none := by
        unfold CachedTasks.set
        split
        · exact Or.inl (Function.update_self ..)
        · rename_i hno
          exact Or.inr (hset.resolve_left hno)
      rcases hcached with hcached | hcached <;> rw [hcached] at hc <;> cases hc
      exact le_rfl
    · rw [Function.update_of_ne he]
      have hle := hkept.cache id w' hc
      rw [hsettled] at hle
      exact hle
  · by_cases he : id = taskID
    · subst he
      dsimp only
      rw [Function.update_self]
      exact h.backing id w hw
    · dsimp only
      rw [Function.update_of_ne he]

/-- One action of a call, in order. -/
theorem Settled.goOn {i : Nat} (h : s.Settled) (hi : s.calls[i]? = some c) (hord : s.inOrder (.goOn i ok) = true)
    (hgo : s.goOn c ok = some (s', stage)) :
    Keeps s s' ∧ (∀ w, stage.held = some w → s'.backing c.op.taskID = some w) ∧
      ({ c with stage := stage } : TaskCacheCall).Fresh := by
  have hc : c ∈ s.calls := List.mem_of_getElem? hi
  unfold inOrder at hord
  dsimp only at hord
  rw [hi] at hord
  unfold CachedTasks.goOn at hgo
  obtain ⟨op, floor, stage0⟩ := c
  cases op with
  | get taskID => exact h.get hc rfl hgo
  | upsert t =>
    have hfresh : ∀ stage, ({ op := .upsert t, floor := floor, stage := stage } : TaskCacheCall).Fresh := fun _ => trivial
    dsimp only at hgo hord
    unfold CachedTasks.upsert at hgo
    split at hgo
    · split at hgo
      · cases hgo
        refine ⟨h.write hord, fun w hw => ?_, hfresh _⟩
        cases hw
        exact Function.update_self ..
      · cases hgo
        exact ⟨h.keeps, fun w hw => (by cases hw), hfresh _⟩
    · rename_i w
      cases hgo
      have hw : s.backing t.taskID = some w := h.held _ hc w rfl
      refine ⟨h.settle hw ?_, fun w hw => (by cases hw), hfresh _⟩
      simpa using hord
    · cases hgo

/-- A step in order keeps what is known of the cache and of the calls. -/
theorem Settled.step {choice : TaskCacheChoice} (h : s.Settled) (hord : s.inOrder choice = true)
    (hstep : s.step choice = some s') : s'.Settled := by
  cases choice with
  | call op =>
    cases hstep
    refine ⟨h.numbered, h.backing, h.absent, h.cache, fun c hc w hw => ?_, fun c hc => ?_, fun c hc => ?_⟩
    · rcases List.mem_append.mp hc with hc | hc
      · exact h.held c hc w hw
      · rw [List.mem_singleton.mp hc] at hw
        cases hw
    · rcases List.mem_append.mp hc with hc | hc
      · exact h.floor c hc
      · rw [List.mem_singleton.mp hc]
    · rcases List.mem_append.mp hc with hc | hc
      · exact h.fresh c hc
      · rw [List.mem_singleton.mp hc]
        unfold TaskCacheCall.Fresh
        cases op <;> trivial
  | expire taskID =>
    cases hstep
    refine ⟨h.numbered, h.backing, h.absent, fun id w hc => ?_, h.held, h.floor, h.fresh⟩
    dsimp only at hc
    by_cases he : id = taskID
    · subst he
      rw [Function.update_self] at hc
      cases hc
    · rw [Function.update_of_ne he] at hc
      exact h.cache id w hc
  | goOn i ok =>
    obtain ⟨c, hi, hstep⟩ := Option.bind_eq_some_iff.mp hstep
    obtain ⟨⟨s1, stage⟩, hgo, hstep⟩ := Option.bind_eq_some_iff.mp hstep
    cases hstep
    have hc : c ∈ s.calls := List.mem_of_getElem? hi
    obtain ⟨hkeeps, hheld, hfresh⟩ := h.goOn hi hord hgo
    have hmem : ∀ {c0 : TaskCacheCall}, c0 ∈ s.calls.set i { c with stage := stage } →
        c0 ∈ s.calls ∨ c0 = { c with stage := stage } := fun hc0 => List.mem_or_eq_of_mem_set hc0
    refine ⟨hkeeps.numbered, hkeeps.backing, hkeeps.absent, hkeeps.cache, fun c0 hc0 w hw => ?_, fun c0 hc0 => ?_,
      fun c0 hc0 => ?_⟩
    · rcases hmem hc0 with hin | rfl
      · exact hkeeps.held c0 hin w hw
      · exact hheld w hw
    · rcases hmem hc0 with hin | rfl
      · exact (h.floor c0 hin).trans (hkeeps.grows _)
      · exact (h.floor c hc).trans (hkeeps.grows _)
    · rcases hmem hc0 with hin | rfl
      · exact h.fresh c0 hin
      · exact hfresh

end CachedTasks

/-- In a run in order no `Get` goes behind an `Upsert` that had returned when it was called. -/
theorem cached_reads_fresh {choices : List TaskCacheChoice} {s : CachedTasks}
    (hrun : Library.Runs CachedTasks.step (fun s choice => s.inOrder choice = true) {} choices s) :
    ∀ c ∈ s.calls, c.Fresh :=
  (hrun.invariant CachedTasks.settled_blank (fun h hord hstep => h.step hord hstep)).fresh

/-- A task as it is stored in two versions. -/
def cachedTask (candidates : List Actor) : HumanTask :=
  { taskID := "t1", instanceID := "i", nodeID := "u", eligibility := ⟨[], [], ""⟩, candidates := candidates, createdAt := 1,
    vars := [] }

/-- The number of the write a `Get` returned, with the one it may not go behind. -/
def TaskCacheCall.outcome (c : TaskCacheCall) : Option (Nat × Nat) :=
  match c.op, c.stage with
  | .get _, .returned (some w) => some (w.number, c.floor)
  | _, _ => none

def CachedTasks.outcomes (s : CachedTasks) : List (Nat × Nat) := s.calls.filterMap TaskCacheCall.outcome

/-- A task is written, read through the cache, written again and read again. -/
def readsInTurn : List TaskCacheChoice :=
  [.call (.upsert (cachedTask [])), .goOn 0 true, .goOn 0 true, .expire "t1", .call (.get "t1"), .goOn 1 true,
    .goOn 1 true, .goOn 1 true, .call (.upsert (cachedTask [{ id := "ann" }])), .goOn 2 true, .goOn 2 true,
    .call (.get "t1"), .goOn 3 true]

theorem reads_in_turn_fresh : ∃ s, Library.Runs CachedTasks.step (fun s choice => s.inOrder choice = true) {} readsInTurn s ∧
    (∀ c ∈ s.calls, c.Fresh) ∧ s.outcomes = [(1, 1), (2, 2)] := by
  have hplay : Library.plays CachedTasks.step (fun s choice => s.inOrder choice = true) {} readsInTurn
      (fun s => s.outcomes == [(1, 1), (2, 2)]) = true := by decide
  obtain ⟨s, hrun, hQ⟩ := Library.runs_of_plays hplay
  exact ⟨s, hrun, cached_reads_fresh hrun, beq_iff_eq.mp hQ⟩

/-- A `Get` reads the first version and is overtaken by an `Upsert` of the second before it caches it. -/
def readsOvertaken : List TaskCacheChoice :=
  [.call (.upsert (cachedTask [])), .goOn 0 true, .goOn 0 true, .expire "t1", .call (.get "t1"), .goOn 1 true,
    .goOn 1 true, .call (.upsert (cachedTask [{ id := "ann" }])), .goOn 2 true, .goOn 2 true, .goOn 1 true,
    .call (.get "t1"), .goOn 3 true]

/-- A `Get` called after the second `Upsert` has returned yields the first version. -/
theorem stale_read_after_update : ∃ s, Library.Runs CachedTasks.step (fun _ _ => True) {} readsOvertaken s ∧
    s.outcomes = [(1, 1), (1, 2)] ∧ ∃ c ∈ s.calls, ¬ c.Fresh := by
  have hplay : Library.plays CachedTasks.step (fun _ _ => True) {} readsOvertaken
      (fun s => s.outcomes == [(1, 1), (1, 2)]) = true := by decide
  obtain ⟨s, hrun, hQ⟩ := Library.runs_of_plays hplay
  have hout : s.outcomes = [(1, 1), (1, 2)] := beq_iff_eq.mp hQ
  have hin : ((1, 2) : Nat × Nat) ∈ s.outcomes := by
    rw [hout]
    exact List.mem_cons_of_mem _ List.mem_cons_self
  obtain ⟨c, hc, hstale⟩ := List.mem_filterMap.mp hin
  refine ⟨s, hrun, hout, c, hc, fun hfresh => ?_⟩
  unfold TaskCacheCall.outcome at hstale
  unfold TaskCacheCall.Fresh at hfresh
  split at hstale
  · rename_i w hop hstage
    rw [hop, hstage] at hfresh
    obtain ⟨hnumber, hfloor⟩ := Prod.mk.inj (Option.some.inj hstale)
    have hle : c.floor ≤ w.number := hfresh
    omega
  · cases hstale

end Wrkflw
