import Wrkflw.Runtime.System

/-!
# Calls that lose a commit

A call of the driver takes several steps: it commits one, performs its commands and goes on with what they answer. A commit
that comes too late is refused, and the retry of `applyTriggerRetryingCAS` counts on the refused attempt to have done
nothing. That is so when no call commits a step of an instance while another one owes the instance a result; then every
result is committed, too.

* `Delivery.Safe` : a call that owes a result holds the stored state; an attempt that lost had done nothing;
* `Delivery.Kept` : what a call has committed and what it has queued are its trigger and all answers it was given.
-/

namespace Wrkflw

variable {commands : List Command}

variable {gen : Option IDGenerator}

/-! ## Results that are owed -/

/-- The call has a trigger to step yet, or performs a command that may give one. -/
def Stage.owing : Stage → Bool
  | .iterate l => !l.queue.isEmpty
  | .perform l commands => !l.queue.isEmpty || commands.any Command.answers
  | .child .. => true
  | .load | .done _ => false

theorem Stage.owing_iterate {l : Loop} : (Stage.iterate l).owing = true ↔ l.queue ≠ [] := by
  change (!l.queue.isEmpty) = true ↔ _
  rw [Bool.not_eq_true', List.isEmpty_eq_false_iff]

theorem Stage.owing_perform {l : Loop} :
    (Stage.perform l commands).owing = true ↔ l.queue ≠ [] ∨ ∃ cmd ∈ commands, cmd.answers = true := by
  change (!l.queue.isEmpty || commands.any Command.answers) = true ↔ _
  rw [Bool.or_eq_true, Bool.not_eq_true', List.isEmpty_eq_false_iff, List.any_eq_true]

theorem Stage.owing_of_queue {stage : Stage} {l : Loop} (hl : stage.loop? = some l) (hq : l.queue ≠ []) :
    stage.owing = true := by
  cases stage with
  | iterate l' =>
    cases hl
    exact Stage.owing_iterate.mpr hq
  | perform l' commands =>
    cases hl
    exact Stage.owing_perform.mpr (Or.inl hq)
  | child l' commandID childID commands callee => rfl
  | load => cases hl
  | done result => cases hl

/-- The call has committed a step and owes the instance what comes of it. -/
def Delivery.owes (c : Delivery gen) : Bool := !c.deeds.committed.isEmpty && c.stage.owing

def Stage.iterating? : Stage → Option Loop
  | .iterate l => some l
  | _ => none

/-- No call commits to an instance another call owes a result, and no other failure looks like a lost commit. -/
def System.Undisturbed (y : System gen) : Choice gen → Prop
  | .advance i w =>
    (∀ e ∈ w.failure, e.isConcurrent = false) ∧
      ∀ c ∈ y.calls[i]?, ∀ l ∈ c.stage.iterating?, l.create = true ∨ l.token = y.store.versionOf c.instanceID →
        ∀ j < y.calls.length, j ≠ i → ∀ c' ∈ y.calls[j]?, c'.instanceID = c.instanceID → c'.owes = false
  | _ => True

instance (y : System gen) (choice : Choice gen) : Decidable (y.Undisturbed choice) :=
  match choice with
  | .advance i w => inferInstanceAs (Decidable ((∀ e ∈ w.failure, e.isConcurrent = false) ∧
      ∀ c ∈ y.calls[i]?, ∀ l ∈ c.stage.iterating?, l.create = true ∨ l.token = y.store.versionOf c.instanceID →
        ∀ j < y.calls.length, j ≠ i → ∀ c' ∈ y.calls[j]?, c'.instanceID = c.instanceID → c'.owes = false))
  | .apply .. | .start .. | .markNotified _ => .isTrue trivial

/-! ## What a call has done -/

/-- What an attempt can have done where it stands. -/
def Stage.Stands : Stage → Deeds → Prop
  | .load, deeds => deeds = {}
  | .iterate _, deeds => deeds = {} ∨ deeds.committed ≠ []
  | .perform .., deeds | .child .., deeds => deeds.committed ≠ []
  | .done result, deeds => ∀ e, result = .error e → e.isConcurrent = true → deeds = {}

structure Delivery.Safe (m : MemInstanceStore) (c : Delivery gen) : Prop where
  /-- A call that owes a result holds what is stored. -/
  current : c.owes = true → ∀ l, c.stage.loop? = some l → m.instances c.instanceID = some ⟨l.st, l.token⟩
  stands : c.stage.Stands c.deeds
  lost : ∀ deeds ∈ c.lost, deeds = {}

section Safe
variable {y z : System gen} {w : World} {c c' : Delivery gen} {m : MemInstanceStore} {child : Option (Delivery gen)}
  {e : DriverError} {l : Loop}

theorem Delivery.owes_of_stage (hd : c.deeds.committed ≠ []) (hs : c.stage.owing = true) : c.owes = true := by
  unfold Delivery.owes
  rw [hs, Bool.and_true, Bool.not_eq_true', List.isEmpty_eq_false_iff]
  exact hd

theorem Delivery.owes_iff : c.owes = true ↔ c.deeds.committed ≠ [] ∧ c.stage.owing = true := by
  refine ⟨?_, fun h => Delivery.owes_of_stage h.1 h.2⟩
  intro h
  unfold Delivery.owes at h
  rw [Bool.and_eq_true, Bool.not_eq_true', List.isEmpty_eq_false_iff] at h
  exact h

/-- An attempt ends safely when it was not lost or had done nothing. -/
theorem Delivery.Safe.returns (hlost : ∀ deeds ∈ c.lost, deeds = {}) (hclean : e.isConcurrent = true → c.deeds = {}) :
    (c.returns e).Safe m := by
  have hboth : e.isConcurrent = true → ∀ deeds ∈ c.lost ++ [c.deeds], deeds = {} := by
    intro he deeds hmem
    rcases List.mem_append.mp hmem with hmem | hmem
    · exact hlost deeds hmem
    · rw [List.mem_singleton.mp hmem]
      exact hclean he
  refine ⟨?_, ?_, ?_⟩
  · intro _ l hl
    rw [Delivery.returns_loop] at hl
    cases hl
  · unfold Delivery.returns
    split
    · rename_i he
      split
      · exact fun e' h' _ => hclean he
      · exact rfl
    · rename_i he
      intro e' h' hconc
      cases h'
      exact absurd hconc he
  · unfold Delivery.returns
    split
    · rename_i he
      split
      · exact hboth he
      · exact hboth he
    · exact hlost

theorem Delivery.Safe.returns_other (hlost : ∀ deeds ∈ c.lost, deeds = {}) (he : e.isConcurrent = false) :
    (c.returns e).Safe m :=
  .returns hlost (fun h => absurd (he.symm.trans h) Bool.false_ne_true)

/-- A commit finds a call that owes a result with the stored version. -/
theorem Delivery.Safe.version (h : c.Safe m) (howes : c.owes = true) (hl : c.stage.loop? = some l) :
    m.versionOf c.instanceID = l.token := by
  unfold MemInstanceStore.versionOf
  rw [h.current howes l hl]

/-- Who begins to commit owes nothing, or has the current version. -/
theorem Delivery.Safe.deeds_of_stale (h : c.Safe m) (hstage : c.stage = .iterate l) {t : Trigger} {queue : List Trigger}
    (hqueue : l.queue = t :: queue) (hstale : m.versionOf c.instanceID ≠ l.token) : c.deeds = {} := by
  have hstands := h.stands
  rw [hstage] at hstands
  rcases hstands with hd | hd
  · exact hd
  · refine absurd (h.version (Delivery.owes_of_stage hd ?_) (by rw [hstage]; rfl)) hstale
    rw [hstage, Stage.owing_iterate, hqueue]
    exact List.cons_ne_nil t queue

/-- A command that is performed leaves the call safe, whatever it gives. -/
theorem Delivery.Safe.resume {t : Option Trigger} (hd : c.deeds.committed ≠ [])
    (hcurrent : (c.resume l commands t).owes = true → m.instances c.instanceID = some ⟨l.st, l.token⟩)
    (hlost : ∀ deeds ∈ c.lost, deeds = {}) : (c.resume l commands t).Safe m := by
  refine ⟨?_, ?_, ?_⟩
  · intro howes l' hl
    rw [Delivery.resume_stage] at hl
    cases hl
    rw [Delivery.resume_instanceID]
    exact hcurrent howes
  · rw [Delivery.resume_stage, Delivery.resume_deeds]
    exact hd
  · cases t <;> exact hlost

/-- The transition of a call keeps it safe. -/
theorem Delivery.Does.safe (hsound : ∀ l, c.stage.loop? = some l → Steps.Sound gen c.instanceID l.st)
    (hfail : ∀ e ∈ w.failure, e.isConcurrent = false) (hsafe : c.Safe y.store) (h : c.Does y w m c' child) : c'.Safe m := by
  have hstands := hsafe.stands
  have hcurrent := hsafe.current
  cases h with
  | notFound hstage e he => exact .returns_other hsafe.lost he
  | loads hstage st token hinst =>
    rw [hstage] at hstands
    refine ⟨?_, Or.inl hstands, hsafe.lost⟩
    intro howes l hl
    exact absurd (congrArg Deeds.committed hstands) (Delivery.owes_iff.mp howes).1
  | finishes l hstage hqueue => exact ⟨(fun _ _ hl => nomatch hl), (fun _ h => nomatch h), hsafe.lost⟩
  | refused l hstage t queue hqueue e hprep => exact .returns_other hsafe.lost (prepare_error hprep)
  | loses l hstage t queue hqueue r outcome hprep e hwrite =>
    refine .returns hsafe.lost ?_
    intro he
    obtain rfl : e = .concurrentUpdate := by
      cases e with
      | concurrentUpdate => rfl
      | instanceExists => cases he
      | instanceNotFound => cases he
    have hr := prepare_sound (hsound l (by rw [hstage]; rfl)) hprep
    exact hsafe.deeds_of_stale hstage hqueue (Delivery.writes_concurrent hr.instanceID hwrite)
  | timersFail l hstage t queue hqueue r outcome hprep m version hwrite e hwfail =>
    exact .returns_other hsafe.lost (hfail e hwfail)
  | commits l hstage t queue hqueue r outcome hprep m version hwrite =>
    have hr := prepare_sound (hsound l (by rw [hstage]; rfl)) hprep
    obtain ⟨-, hinst, -⟩ := Delivery.writes_ok hr.instanceID hwrite
    refine ⟨?_, ?_, hsafe.lost⟩
    · intro _ l' hl
      cases hl
      rw [hinst]
      exact MemInstanceStore.put_same _ _ _
    · intro hnil
      exact absurd hnil (by simp [Delivery.notesCommit])
  | performed l hstage =>
    rw [hstage] at hstands
    refine ⟨?_, Or.inr hstands, hsafe.lost⟩
    intro howes l' hl
    cases hl
    refine hcurrent (Delivery.owes_of_stage hstands ?_) l (by rw [hstage]; rfl)
    rw [hstage, Stage.owing_perform]
    exact Or.inl (Stage.owing_iterate.mp (Delivery.owes_iff.mp howes).2)
  | skips l cmd commands hstage htimer =>
    rw [hstage] at hstands
    refine ⟨?_, hstands, hsafe.lost⟩
    intro howes l' hl
    cases hl
    refine hcurrent (Delivery.owes_of_stage hstands ?_) l (by rw [hstage]; rfl)
    rw [hstage, Stage.owing_perform]
    rcases Stage.owing_perform.mp (Delivery.owes_iff.mp howes).2 with hq | ⟨cmd', hmem, hans⟩
    · exact Or.inl hq
    · exact Or.inr ⟨cmd', List.mem_cons_of_mem _ hmem, hans⟩
  | performFails l cmd commands hstage e pre hwfail =>
    exact .returns_other hsafe.lost (hfail e hwfail)
  | performs l cmd commands hstage t hanswers =>
    rw [hstage] at hstands
    refine .resume hstands ?_ hsafe.lost
    intro howes
    refine hcurrent (Delivery.owes_of_stage hstands ?_) l (by rw [hstage]; rfl)
    have hq := (Delivery.owes_iff.mp howes).2
    rw [Delivery.resume_stage, Stage.owing_perform] at hq
    rw [hstage, Stage.owing_perform]
    -- a trigger that was given stands for a command that could give it
    cases t with
    | some t => exact Or.inr ⟨cmd, List.mem_cons_self, hanswers (fun h => nomatch h)⟩
    | none =>
      rcases hq with hq | ⟨cmd', hmem, hans⟩
      · rw [show (l.append none).queue = l.queue from List.append_nil _] at hq
        exact Or.inl hq
      · exact Or.inr ⟨cmd', List.mem_cons_of_mem _ hmem, hans⟩
  | spawns l cmd commands hstage hanswers child hlink =>
    rw [hstage] at hstands
    refine ⟨?_, hstands, hsafe.lost⟩
    intro howes l' hl
    cases hl
    refine hcurrent (Delivery.owes_of_stage hstands ?_) l (by rw [hstage]; rfl)
    rw [hstage, Stage.owing_perform]
    exact Or.inr ⟨cmd, List.mem_cons_self, hanswers⟩
  | resumes l commandID childID commands callee hstage t =>
    rw [hstage] at hstands
    refine .resume hstands ?_ hsafe.lost
    intro _
    refine hcurrent (Delivery.owes_of_stage hstands ?_) l (by rw [hstage]; rfl)
    rw [hstage]
    rfl

/-- Another call's commit to the instance meets a call that owes nothing; any other transition leaves its row alone. -/
theorem Delivery.Safe.beside {i j : Nat} {c0 : Delivery gen}
    (hsound : ∀ l, c.stage.loop? = some l → Steps.Sound gen c.instanceID l.st)
    (hquiet : y.Undisturbed (.advance i w)) (hc : y.calls[i]? = some c) (hj : y.calls[j]? = some c0) (hne : j ≠ i)
    (h0 : c0.Safe y.store) (h : c.Does y w m c' child) : c0.Safe m := by
  have hwrites : ∀ {l t r outcome version}, c.stage = .iterate l →
      c.driver.prepare w.fuel c.definition l.st t = some (.ok (r, outcome)) →
      Delivery.writes y.store l t r outcome = .ok (m, version) → c0.Safe m := by
    intro l t r outcome version hstage hprep hwrite
    have hr := prepare_sound (hsound l (by rw [hstage]; rfl)) hprep
    obtain ⟨hat, hinst, -⟩ := Delivery.writes_ok hr.instanceID hwrite
    refine ⟨?_, h0.stands, h0.lost⟩
    intro howes l' hl
    have hother : c0.instanceID ≠ c.instanceID := by
      intro hsame
      have hfree := hquiet.2 c hc l (by rw [hstage]; rfl) ?_ j (List.getElem?_eq_some_iff.mp hj).1 hne c0 hj hsame
      · rw [howes] at hfree
        cases hfree
      · rcases hat with ⟨hcreate, -⟩ | ⟨-, st, hst⟩
        · exact Or.inl hcreate
        · refine Or.inr ?_
          unfold MemInstanceStore.versionOf
          rw [hst]
    rw [hinst, MemInstanceStore.put_other _ _ hother]
    exact h0.current howes l' hl
  cases h with
  | timersFail l hstage t queue hqueue r outcome hprep m version hwrite e hfail => exact hwrites hstage hprep hwrite
  | commits l hstage t queue hqueue r outcome hprep m version hwrite => exact hwrites hstage hprep hwrite
  | _ => exact h0

theorem Delivery.Fresh.safe (h : c.Fresh) : c.Safe m := by
  cases h with
  | apply driver d instanceID trg retrying => exact ⟨(fun h => nomatch h), rfl, (fun _ h => nomatch h)⟩
  | create driver d instanceID trg depth link hlink => exact ⟨(fun h => nomatch h), Or.inl rfl, (fun _ h => nomatch h)⟩

theorem System.safe_step {choice : Choice gen} (hsound : y.Sound) (hquiet : y.Undisturbed choice)
    (hall : ∀ c ∈ y.calls, c.Safe y.store) (hstep : y.step choice = some z) : ∀ c ∈ z.calls, c.Safe z.store := by
  refine System.calls_induction hall hstep Delivery.Fresh.safe (fun _ h => ⟨h.current, h.stands, h.lost⟩) ?_
  intro i w c m c' child he hc hdoes
  subst he
  have hheld := hsound.held c (List.mem_of_getElem? hc)
  refine ⟨hdoes.safe hheld hquiet.1 (hall c (List.mem_of_getElem? hc)), ?_⟩
  intro j c0 hne hj
  exact Delivery.Safe.beside hheld hquiet hc hj hne (hall c0 (List.mem_of_getElem? hj)) hdoes

end Safe

/-! ## Attempts that lose -/

variable {links : Option MemCallLinks} {choices : List (Choice gen)} {y : System gen} {c : Delivery gen}

theorem System.runs_safe (hrun : System.Runs System.Undisturbed (System.blank links) choices y) :
    y.Sound ∧ ∀ c ∈ y.calls, c.Safe y.store :=
  hrun.induction (I := fun y => y.Sound ∧ ∀ c ∈ y.calls, c.Safe y.store) ⟨System.blank_sound links, (fun _ h => nomatch h)⟩
    (fun h hquiet hstep => ⟨h.1.step hstep, System.safe_step h.1 hquiet h.2 hstep⟩)

/-- In a run where no call is overtaken while it owes a result, every attempt that came to `ErrConcurrentUpdate` had
committed no step and dispatched no command, and so had a call that returned it. -/
theorem lost_attempts_did_nothing (hrun : System.Runs System.Undisturbed (System.blank links) choices y) (hc : c ∈ y.calls) :
    (∀ deeds ∈ c.lost, deeds.committed = [] ∧ deeds.dispatched = []) ∧
      ∀ e, c.stage = .done (.error e) → e.isConcurrent = true → c.deeds.committed = [] ∧ c.deeds.dispatched = [] := by
  have hsafe := (System.runs_safe hrun).2 c hc
  refine ⟨?_, ?_⟩
  · intro deeds hmem
    rw [hsafe.lost deeds hmem]
    exact ⟨rfl, rfl⟩
  · intro e hstage he
    have hstands := hsafe.stands
    rw [hstage] at hstands
    rw [hstands e rfl he]
    exact ⟨rfl, rfl⟩

/-- A user task, then one beside a service task. -/
def approvesTwice : ProcessDefinition where
  id := "approval"
  version := 1
  nodes := [startNode "s", userNode "v",
    forkNode "g", userNode "u",
    serviceNode "a" "", endNode "e"]
  flows := [flowOf "f0" "s" "v", flowOf "f1" "v" "g", flowOf "f2" "g" "u", flowOf "f3" "g" "a",
    flowOf "f4" "u" "e", flowOf "f5" "a" "e"]

/-- A call goes on; an action it performs completes. -/
def goesOn (i : Nat) : Choice none := .advance i { now := 9, fuel := 50, action := .completed [] }

def approve (taskID : String) (retrying : Bool) : Choice none :=
  .apply plainDriver approvesTwice "i" ⟨2, .humanCompleted taskID "" "" [] { id := "ann" }⟩ retrying

def claim (taskID : String) : Choice none :=
  .apply plainDriver approvesTwice "i" ⟨3, .humanClaimed taskID { id := "ann" }⟩ false

/-- The instance stands at its first task. -/
def startsApproval : List (Choice none) :=
  [.start plainDriver approvesTwice "i" 1 [] "", goesOn 0, goesOn 0, goesOn 0, goesOn 0]

/-- The task is claimed between the load and the commit of the call that completes it, which begins anew. -/
theorem retried_call_had_done_nothing : ∃ choices y c,
    System.Runs System.Undisturbed (System.blank none : System none) choices y ∧
    c ∈ y.calls ∧ c.lost.length = 1 ∧ c.deeds.committed.length = 2 ∧
    ∀ deeds ∈ c.lost, deeds.committed = [] ∧ deeds.dispatched = [] := by
  have hplay : System.plays System.Undisturbed (System.blank none)
      (startsApproval ++ [approve "i-h1" true, claim "i-h1", goesOn 1, goesOn 2, goesOn 2, goesOn 1,
        goesOn 1, goesOn 1, goesOn 1,
        goesOn 1, goesOn 1, goesOn 1, goesOn 1])
      (fun y => y.calls.any (fun c => c.lost.length == 1 && c.deeds.committed.length == 2)) = true := by decide
  obtain ⟨y, hrun, hQ⟩ := System.runs_of_plays hplay
  obtain ⟨c, hc, hlost⟩ := List.any_eq_true.mp hQ
  simp only [Bool.and_eq_true, beq_iff_eq] at hlost
  exact ⟨_, y, c, hrun, hc, hlost.1, hlost.2, (lost_attempts_did_nothing hrun hc).1⟩

/-- The first task is approved, the action beside the second runs, and the second is claimed before the action's result
is committed. -/
def overtakes : List (Choice none) :=
  startsApproval ++ [approve "i-h1" false, goesOn 1, goesOn 1, goesOn 1, goesOn 1, goesOn 1, goesOn 1, claim "i-h2", goesOn 2,
    goesOn 2, goesOn 2, goesOn 2, goesOn 2, goesOn 1]

/-- The call has returned `ErrConcurrentUpdate`. -/
def Delivery.overtaken (c : Delivery gen) : Bool :=
  match c.stage with
  | .done (.error e) => e.isConcurrent
  | _ => false

/-- The call that approved returns `ErrConcurrentUpdate` after a commit and the commands it dispatched. -/
theorem overtaken_call_had_acted : ∃ choices y c e,
    System.Runs (fun _ _ => True) (System.blank none : System none) choices y ∧
    c ∈ y.calls ∧ c.stage = .done (.error e) ∧ e.isConcurrent = true ∧ c.deeds.committed ≠ [] ∧ c.deeds.dispatched ≠ [] := by
  have hplay : System.plays (fun _ _ => True) (System.blank none) overtakes
      (fun y => y.calls.any (fun c => c.overtaken && !c.deeds.committed.isEmpty && !c.deeds.dispatched.isEmpty)) = true := by
        decide
  obtain ⟨y, hrun, hQ⟩ := System.runs_of_plays hplay
  obtain ⟨c, hc, hacted⟩ := List.any_eq_true.mp hQ
  simp only [Bool.and_eq_true, Bool.not_eq_true', List.isEmpty_eq_false_iff] at hacted
  obtain ⟨⟨hstage, hcommitted⟩, hdispatched⟩ := hacted
  unfold Delivery.overtaken at hstage
  split at hstage
  · rename_i e he
    exact ⟨_, y, c, e, hrun, hc, he, hstage, hcommitted, hdispatched⟩
  · cases hstage

/-! ## Results that are kept -/

/-- The next iteration ends before its commit. -/
def ProcessDriver.refuses (driver : ProcessDriver gen) (fuel : Nat) (d : ProcessDefinition)
    (s : InstanceState) (t : Trigger) :
    Bool :=
  match driver.prepare fuel d s t with
  | some (.error _) => true
  | _ => false

/-- A call that owes a result meets no failure: its stores answer, and the engine takes its next trigger. -/
def System.Smooth (y : System gen) : Choice gen → Prop
  | .advance i w =>
    ∀ c ∈ y.calls[i]?, c.owes = true → w.failure = none ∧
      ∀ l ∈ c.stage.iterating?, ∀ t ∈ l.queue.head?, c.driver.refuses w.fuel c.definition l.st t = false
  | _ => True

instance (y : System gen) (choice : Choice gen) : Decidable (y.Smooth choice) :=
  match choice with
  | .advance i w => inferInstanceAs (Decidable (∀ c ∈ y.calls[i]?, c.owes = true → w.failure = none ∧
      ∀ l ∈ c.stage.iterating?, ∀ t ∈ l.queue.head?, c.driver.refuses w.fuel c.definition l.st t = false))
  | .apply .. | .start .. | .markNotified _ => .isTrue trivial

structure Delivery.Kept (m : MemInstanceStore) (c : Delivery gen) : Prop where
  /-- The trigger and the answers are committed, or wait in their order. -/
  account : ∀ l, c.stage.loop? = some l → c.trigger :: c.answers = c.deeds.committed ++ l.queue
  early : c.deeds.committed = [] → c.answers = []
  creates : ∀ l, c.stage.loop? = some l → l.create = true → c.deeds.committed = []
  ended : ∀ result, c.stage = .done result → ∀ a ∈ c.answers, a ∈ c.deeds.committed
  journal : ∀ t ∈ c.deeds.committed, t ∈ m.journal c.instanceID

section Kept
variable {y z : System gen} {w : World} {c c' : Delivery gen} {m : MemInstanceStore} {child : Option (Delivery gen)}
  {e : DriverError} {l : Loop}

/-- An attempt ends with all its answers committed, or lost and without any. -/
theorem Delivery.Kept.returns (hkept : c.Kept m) (hall : ∀ a ∈ c.answers, a ∈ c.deeds.committed)
    (hclean : e.isConcurrent = true → c.deeds = {}) : (c.returns e).Kept m := by
  have hnone : e.isConcurrent = true → c.answers = [] := fun he => hkept.early (congrArg Deeds.committed (hclean he))
  unfold Delivery.returns
  split
  · rename_i he
    split
    · exact ⟨(fun l hl => nomatch hl), hkept.early, (fun l hl => nomatch hl), (fun _ _ => hall), hkept.journal⟩
    · exact ⟨(fun l hl => nomatch hl), (fun _ => hnone he), (fun l hl => nomatch hl), (fun _ hs => nomatch hs),
        (fun t ht => nomatch ht)⟩
  · exact ⟨(fun l hl => nomatch hl), hkept.early, (fun l hl => nomatch hl), (fun _ _ => hall), hkept.journal⟩

/-- A performed command's answer joins the queue. -/
theorem Delivery.Kept.resume {t : Option Trigger} (hkept : c.Kept m) (hl : c.stage.loop? = some l)
    (hd : c.deeds.committed ≠ []) : (c.resume l commands t).Kept m := by
  have hacc := hkept.account l hl
  have hfresh : l.create ≠ true := fun hcreate => hd (hkept.creates l hl hcreate)
  cases t with
  | none =>
    refine ⟨?_, hkept.early, ?_, (fun _ hs => nomatch hs), hkept.journal⟩
    · intro l' hl'
      cases hl'
      exact hacc
    · intro l' hl' hcreate
      cases hl'
      exact absurd hcreate hfresh
  | some t =>
    refine ⟨?_, (fun hnil => absurd hnil hd), ?_, (fun _ hs => nomatch hs), hkept.journal⟩
    · intro l' hl'
      cases hl'
      change c.trigger :: (c.answers ++ [t]) = c.deeds.committed ++ (l.queue ++ [t])
      rw [← List.append_assoc, ← hacc]
      rfl
    · intro l' hl' hcreate
      cases hl'
      exact absurd hcreate hfresh

/-- The stored state accepts the commit of the call that holds it. -/
theorem Delivery.writes_current {st : InstanceState} {t : Trigger} {r : StepResult} {outcome : Option CallOutcome}
    {id : String} (hcreate : l.create = false) (hid : r.state.instanceID = id) (hst : m.instances id = some ⟨st, l.token⟩)
    {e : StoreError} : Delivery.writes m l t r outcome ≠ .error e := by
  subst hid
  unfold Delivery.writes MemInstanceStore.commit
  rw [hcreate]
  dsimp only
  rw [hst, if_neg Bool.false_ne_true]
  dsimp only
  rw [if_neg (not_not.mpr rfl)]
  exact nofun

/-- No journal loses an entry. -/
theorem Delivery.Does.journal_grows (hsound : ∀ l, c.stage.loop? = some l → Steps.Sound gen c.instanceID l.st)
    (h : c.Does y w m c' child) {id : String} {t : Trigger} (ht : t ∈ y.store.journal id) : t ∈ m.journal id := by
  have hwrites : ∀ {l t' r outcome version}, c.stage = .iterate l →
      c.driver.prepare w.fuel c.definition l.st t' = some (.ok (r, outcome)) →
      Delivery.writes y.store l t' r outcome = .ok (m, version) → t ∈ m.journal id := by
    intro l t' r outcome version hstage hprep hwrite
    have hr := prepare_sound (hsound l (by rw [hstage]; rfl)) hprep
    obtain ⟨-, -, hjournal⟩ := Delivery.writes_ok hr.instanceID hwrite
    rw [hjournal]
    by_cases hid : id = c.instanceID
    · subst hid
      rw [MemInstanceStore.put_same]
      exact List.mem_append_left _ ht
    · rw [MemInstanceStore.put_other _ _ hid]
      exact ht
  cases h with
  | timersFail l hstage t queue hqueue r outcome hprep m version hwrite e hfail => exact hwrites hstage hprep hwrite
  | commits l hstage t queue hqueue r outcome hprep m version hwrite => exact hwrites hstage hprep hwrite
  | _ => exact ht

/-- The transition of a call keeps its results. -/
theorem Delivery.Does.kept (hsound : ∀ l, c.stage.loop? = some l → Steps.Sound gen c.instanceID l.st)
    (hfail : ∀ e ∈ w.failure, e.isConcurrent = false)
    (hsmooth : c.owes = true → w.failure = none ∧
      ∀ l ∈ c.stage.iterating?, ∀ t ∈ l.queue.head?, c.driver.refuses w.fuel c.definition l.st t = false)
    (hsafe : c.Safe y.store) (hkept : c.Kept y.store) (h : c.Does y w m c' child) : c'.Kept m := by
  have hgrows : ∀ {id : String} {t : Trigger}, t ∈ y.store.journal id → t ∈ m.journal id :=
    fun ht => h.journal_grows hsound ht
  have hstands := hsafe.stands
  have hjournal : ∀ t ∈ c.deeds.committed, t ∈ m.journal c.instanceID := fun t ht => hgrows (hkept.journal t ht)
  have hmoved : c.Kept m := ⟨hkept.account, hkept.early, hkept.creates, hkept.ended, hjournal⟩
  -- a call that owes nothing has committed all it was given
  have hpaid : ∀ {l}, c.stage.loop? = some l → c.owes = false → c.stage.owing = true ∨ l.queue = [] →
      ∀ a ∈ c.answers, a ∈ c.deeds.committed := by
    intro l hl howes hq a ha
    by_cases hd : c.deeds.committed = []
    · rw [hkept.early hd] at ha
      cases ha
    · rcases hq with hq | hq
      · rw [Delivery.owes_of_stage hd hq] at howes
        cases howes
      · have hacc := hkept.account l hl
        rw [hq, List.append_nil] at hacc
        rw [← hacc]
        exact List.mem_cons_of_mem _ ha
  have hiterates : ∀ {l t queue}, c.stage = .iterate l → l.queue = t :: queue → c.stage.owing = true := by
    intro l t queue hstage hqueue
    rw [hstage, Stage.owing_iterate, hqueue]
    exact List.cons_ne_nil t queue
  have hother : ∀ {e : DriverError}, e.isConcurrent = false → e.isConcurrent = true → c.deeds = {} :=
    fun h1 h2 => absurd (h1.symm.trans h2) Bool.false_ne_true
  have hfree : ∀ {e}, w.failure = some e → c.owes = false := by
    intro e he
    cases howes : c.owes with
    | false => rfl
    | true =>
      rw [(hsmooth howes).1] at he
      cases he
  cases h with
  | notFound hstage e he =>
    rw [hstage] at hstands
    refine hmoved.returns ?_ (hother he)
    rw [hkept.early (congrArg Deeds.committed hstands)]
    exact fun a ha => nomatch ha
  | loads hstage st token hinst =>
    rw [hstage] at hstands
    have hnil : c.deeds.committed = [] := congrArg Deeds.committed hstands
    refine ⟨?_, hkept.early, ?_, (fun _ hs => nomatch hs), hjournal⟩
    · intro l hl
      cases hl
      change c.trigger :: c.answers = c.deeds.committed ++ [c.trigger]
      rw [hnil, hkept.early hnil]
      rfl
    · intro l hl hcreate
      cases hl
      cases hcreate
  | finishes l hstage hqueue =>
    refine ⟨(fun l hl => nomatch hl), hkept.early, (fun l hl => nomatch hl), ?_, hjournal⟩
    intro result hs a ha
    have hacc := hkept.account l (by rw [hstage]; rfl)
    rw [hqueue, List.append_nil] at hacc
    change a ∈ c.deeds.committed
    rw [← hacc]
    exact List.mem_cons_of_mem _ ha
  | refused l hstage t queue hqueue e hprep =>
    have howes : c.owes = false := by
      cases howes : c.owes with
      | false => rfl
      | true =>
        have hno := (hsmooth howes).2 l (by rw [hstage]; rfl) t (by rw [hqueue]; rfl)
        unfold ProcessDriver.refuses at hno
        rw [hprep] at hno
        cases hno
    exact hmoved.returns (hpaid (by rw [hstage]; rfl) howes (Or.inl (hiterates hstage hqueue))) (hother (prepare_error hprep))
  | loses l hstage t queue hqueue r outcome hprep e hwrite =>
    have hloop : c.stage.loop? = some l := by rw [hstage]; rfl
    have hr := prepare_sound (hsound l hloop) hprep
    -- whoever owes a result holds the stored state, and does not lose
    have howes : c.owes = false := by
      cases howes : c.owes with
      | false => rfl
      | true =>
        have hcreate : l.create = false := by
          cases hcreate : l.create with
          | false => rfl
          | true => exact absurd (hkept.creates l hloop hcreate) (Delivery.owes_iff.mp howes).1
        exact absurd hwrite (Delivery.writes_current hcreate hr.instanceID (hsafe.current howes l hloop))
    have hd : c.deeds = {} := by
      rw [hstage] at hstands
      rcases hstands with hd | hd
      · exact hd
      · rw [Delivery.owes_of_stage hd (hiterates hstage hqueue)] at howes
        cases howes
    exact hmoved.returns (hpaid hloop howes (Or.inl (hiterates hstage hqueue))) (fun _ => hd)
  | timersFail l hstage t queue hqueue r outcome hprep m version hwrite e hwfail =>
    have hloop : c.stage.loop? = some l := by rw [hstage]; rfl
    have hr := prepare_sound (hsound l hloop) hprep
    obtain ⟨-, -, hj⟩ := Delivery.writes_ok hr.instanceID hwrite
    have hall := hpaid hloop (hfree hwfail) (Or.inl (hiterates hstage hqueue))
    have hnoted : ∀ t' ∈ (c.notesCommit t).deeds.committed, t' ∈ m.journal c.instanceID := by
      intro t' ht'
      rcases List.mem_append.mp ht' with ht' | ht'
      · exact hjournal t' ht'
      · rw [hj, MemInstanceStore.put_same]
        exact List.mem_append_right _ ht'
    rw [Delivery.returns_of_not_concurrent (show (e.wrap _).isConcurrent = false from hfail e hwfail)]
    refine ⟨(fun l hl => nomatch hl), ?_, (fun l hl => nomatch hl), ?_, hnoted⟩
    · intro hnil
      exact absurd hnil (by simp [Delivery.notesCommit])
    · intro _ _ a ha
      exact List.mem_append_left _ (hall a ha)
  | commits l hstage t queue hqueue r outcome hprep m version hwrite =>
    have hloop : c.stage.loop? = some l := by rw [hstage]; rfl
    have hr := prepare_sound (hsound l hloop) hprep
    obtain ⟨-, -, hj⟩ := Delivery.writes_ok hr.instanceID hwrite
    refine ⟨?_, ?_, ?_, (fun _ hs => nomatch hs), ?_⟩
    · intro l' hl'
      cases hl'
      have hacc := hkept.account l hloop
      rw [hqueue] at hacc
      change c.trigger :: c.answers = (c.deeds.committed ++ [t]) ++ queue
      rw [hacc, List.append_assoc]
      rfl
    · intro hnil
      exact absurd hnil (by simp [Delivery.notesCommit])
    · intro l' hl' hcreate
      cases hl'
      cases hcreate
    · intro t' ht'
      rcases List.mem_append.mp ht' with ht' | ht'
      · exact hjournal t' ht'
      · change t' ∈ m.journal c.instanceID
        rw [hj, MemInstanceStore.put_same]
        exact List.mem_append_right _ ht'
  | performed l hstage =>
    refine ⟨?_, hkept.early, ?_, (fun _ hs => nomatch hs), hjournal⟩
    · intro l' hl'
      cases hl'
      exact hkept.account l (by rw [hstage]; rfl)
    · intro l' hl'
      cases hl'
      exact hkept.creates l (by rw [hstage]; rfl)
  | skips l cmd commands hstage htimer =>
    refine ⟨?_, hkept.early, ?_, (fun _ hs => nomatch hs), hjournal⟩
    · intro l' hl'
      cases hl'
      exact hkept.account l (by rw [hstage]; rfl)
    · intro l' hl'
      cases hl'
      exact hkept.creates l (by rw [hstage]; rfl)
  | performFails l cmd commands hstage e pre hwfail =>
    have hloop : c.stage.loop? = some l := by rw [hstage]; rfl
    have hq : l.queue = [] := by
      rw [hstage] at hstands
      by_contra hq
      have howes := Delivery.owes_of_stage (c := c) hstands (by rw [hstage]; exact Stage.owing_perform.mpr (Or.inl hq))
      rw [hfree hwfail] at howes
      cases howes
    rw [Delivery.returns_of_not_concurrent (show (e.wrap _).isConcurrent = false from hfail e hwfail)]
    exact ⟨(fun l hl => nomatch hl), hkept.early, (fun l hl => nomatch hl),
      (fun _ _ => hpaid hloop (hfree hwfail) (Or.inr hq)), hjournal⟩
  | performs l cmd commands hstage t hanswers =>
    rw [hstage] at hstands
    have hnoted : (c.notesDispatch cmd).Kept y.store := ⟨hkept.account, hkept.early, hkept.creates, hkept.ended, hjournal⟩
    exact hnoted.resume (by change c.stage.loop? = _; rw [hstage]; rfl) hstands
  | spawns l cmd commands hstage hanswers child hlink =>
    refine ⟨?_, hkept.early, ?_, (fun _ hs => nomatch hs), hjournal⟩
    · intro l' hl'
      cases hl'
      exact hkept.account l (by rw [hstage]; rfl)
    · intro l' hl'
      cases hl'
      exact hkept.creates l (by rw [hstage]; rfl)
  | resumes l commandID childID commands callee hstage t =>
    rw [hstage] at hstands
    exact hmoved.resume (by rw [hstage]; rfl) hstands

theorem Delivery.Fresh.kept (h : c.Fresh) : c.Kept m := by
  cases h with
  | apply driver d instanceID trg retrying =>
    exact ⟨(fun _ hl => nomatch hl), (fun _ => rfl), (fun _ hl => nomatch hl), (fun _ hs => nomatch hs),
      (fun _ ht => nomatch ht)⟩
  | create driver d instanceID trg depth link hlink =>
    refine ⟨?_, (fun _ => rfl), (fun _ _ _ => rfl), (fun _ hs => nomatch hs), (fun _ ht => nomatch ht)⟩
    intro l hl
    cases hl
    rfl

/-- No call is overtaken while it owes a result, and none fails then. -/
def System.Orderly (y : System gen) (choice : Choice gen) : Prop := y.Undisturbed choice ∧ y.Smooth choice

instance (y : System gen) (choice : Choice gen) : Decidable (y.Orderly choice) :=
  inferInstanceAs (Decidable (_ ∧ _))

/-- The states are sound, and every call is safe and keeps its results. -/
structure System.Settled (y : System gen) : Prop where
  sound : y.Sound
  safe : ∀ c ∈ y.calls, c.Safe y.store
  kept : ∀ c ∈ y.calls, c.Kept y.store

theorem System.Settled.step {choice : Choice gen} (h : y.Settled) (horderly : y.Orderly choice)
    (hstep : y.step choice = some z) :
    z.Settled := by
  refine ⟨h.sound.step hstep, System.safe_step h.sound horderly.1 h.safe hstep, ?_⟩
  refine System.calls_induction h.kept hstep Delivery.Fresh.kept
    (fun _ h => ⟨h.account, h.early, h.creates, h.ended, h.journal⟩) ?_
  intro i w c m c' child he hc hdoes
  subst he
  have hmem := List.mem_of_getElem? hc
  have hheld := h.sound.held c hmem
  refine ⟨hdoes.kept hheld horderly.1.1 (horderly.2 c hc) (h.safe c hmem) (h.kept c hmem), ?_⟩
  intro j c0 _ hj
  have h0 := h.kept c0 (List.mem_of_getElem? hj)
  exact ⟨h0.account, h0.early, h0.creates, h0.ended, fun t ht => hdoes.journal_grows hheld (h0.journal t ht)⟩

/-- An answer is in the instance's journal, or waits in the queue of a call that holds the stored state. -/
theorem System.Settled.answer (h : y.Settled) (hc : c ∈ y.calls) {a : Trigger} (ha : a ∈ c.answers) :
    a ∈ y.store.journal c.instanceID ∨
      ∃ l, c.stage.loop? = some l ∧ a ∈ l.queue ∧ y.store.instances c.instanceID = some ⟨l.st, l.token⟩ := by
  have hkept := h.kept c hc
  have hsafe := h.safe c hc
  have hd : c.deeds.committed ≠ [] := by
    intro hnil
    rw [hkept.early hnil] at ha
    cases ha
  cases hloop : c.stage.loop? with
  | none =>
    refine Or.inl (hkept.journal a ?_)
    cases hstage : c.stage with
    | load =>
      have hstands := hsafe.stands
      rw [hstage] at hstands
      exact absurd (congrArg Deeds.committed hstands) hd
    | done result => exact hkept.ended result hstage a ha
    | _ =>
      rw [hstage] at hloop
      cases hloop
  | some l =>
    have hmem : a ∈ c.deeds.committed ++ l.queue := by
      rw [← hkept.account l hloop]
      exact List.mem_cons_of_mem _ ha
    rcases List.mem_append.mp hmem with hmem | hmem
    · exact Or.inl (hkept.journal a hmem)
    · have howes := Delivery.owes_of_stage hd (Stage.owing_of_queue hloop (List.ne_nil_of_mem hmem))
      exact Or.inr ⟨l, rfl, hmem, hsafe.current howes l hloop⟩

/-! ## Results get nearer -/

/-- How far a call is from the commit of a trigger in its queue: the triggers before it, then what is left of the commands. -/
def Delivery.ahead (a : Trigger) (c : Delivery gen) : Nat × Nat :=
  match c.stage with
  | .iterate l => (l.queue.idxOf a, 0)
  | .perform l commands => (l.queue.idxOf a, 2 * commands.length + 1)
  | .child l _ _ commands _ => (l.queue.idxOf a, 2 * commands.length + 2)
  | .load | .done _ => (0, 0)

/-- A transition of the call that holds a result commits it or brings it nearer. -/
theorem Delivery.Does.nearer (hsound : ∀ l, c.stage.loop? = some l → Steps.Sound gen c.instanceID l.st)
    (hsmooth : c.owes = true → w.failure = none ∧
      ∀ l ∈ c.stage.iterating?, ∀ t ∈ l.queue.head?, c.driver.refuses w.fuel c.definition l.st t = false)
    (howes : c.owes = true) (hcreate : ∀ l, c.stage.loop? = some l → l.create = false)
    (hcurrent : ∀ l, c.stage.loop? = some l → y.store.instances c.instanceID = some ⟨l.st, l.token⟩) {a : Trigger}
    (ha : ∀ l, c.stage.loop? = some l → a ∈ l.queue) (h : c.Does y w m c' child) :
    a ∈ m.journal c.instanceID ∨ Prod.Lex (· < ·) (· < ·) (c'.ahead a) (c.ahead a) := by
  have hdone := (Delivery.owes_iff.mp howes).2
  cases h with
  | notFound hstage e he =>
    rw [hstage] at hdone
    cases hdone
  | loads hstage st token hinst =>
    rw [hstage] at hdone
    cases hdone
  | finishes l hstage hqueue =>
    have hmem := ha l (by rw [hstage]; rfl)
    rw [hqueue] at hmem
    cases hmem
  | refused l hstage t queue hqueue e hprep =>
    have hno := (hsmooth howes).2 l (by rw [hstage]; rfl) t (by rw [hqueue]; rfl)
    unfold ProcessDriver.refuses at hno
    rw [hprep] at hno
    cases hno
  | loses l hstage t queue hqueue r outcome hprep e hwrite =>
    have hloop : c.stage.loop? = some l := by rw [hstage]; rfl
    have hr := prepare_sound (hsound l hloop) hprep
    exact absurd hwrite (Delivery.writes_current (hcreate l hloop) hr.instanceID (hcurrent l hloop))
  | timersFail l hstage t queue hqueue r outcome hprep m version hwrite e hwfail =>
    rw [(hsmooth howes).1] at hwfail
    cases hwfail
  | commits l hstage t queue hqueue r outcome hprep m version hwrite =>
    have hloop : c.stage.loop? = some l := by rw [hstage]; rfl
    have hr := prepare_sound (hsound l hloop) hprep
    obtain ⟨-, -, hj⟩ := Delivery.writes_ok hr.instanceID hwrite
    by_cases hat : t = a
    · subst hat
      refine Or.inl ?_
      rw [hj, MemInstanceStore.put_same]
      exact List.mem_append_right _ List.mem_cons_self
    · unfold Delivery.ahead
      rw [hstage]
      refine Or.inr (Prod.Lex.left _ _ ?_)
      rw [hqueue, List.idxOf_cons_ne _ hat]
      exact Nat.lt_succ_self _
  | performed l hstage =>
    unfold Delivery.ahead
    rw [hstage]
    exact Or.inr (Prod.Lex.right _ (Nat.succ_pos _))
  | skips l cmd commands hstage htimer =>
    unfold Delivery.ahead
    rw [hstage]
    refine Or.inr (Prod.Lex.right _ ?_)
    rw [List.length_cons]
    omega
  | performFails l cmd commands hstage e pre hwfail =>
    rw [(hsmooth howes).1] at hwfail
    cases hwfail
  | performs l cmd commands hstage t hanswers =>
    have hidx : (l.append t).queue.idxOf a = l.queue.idxOf a := List.idxOf_append_of_mem (ha l (by rw [hstage]; rfl))
    unfold Delivery.ahead
    rw [hstage, Delivery.resume_stage]
    dsimp only
    rw [hidx]
    refine Or.inr (Prod.Lex.right _ ?_)
    rw [List.length_cons]
    omega
  | spawns l cmd commands hstage hanswers child hlink =>
    unfold Delivery.ahead
    rw [hstage]
    refine Or.inr (Prod.Lex.right _ ?_)
    rw [List.length_cons]
    omega
  | resumes l commandID childID commands callee hstage t =>
    have hidx : (l.append t).queue.idxOf a = l.queue.idxOf a := List.idxOf_append_of_mem (ha l (by rw [hstage]; rfl))
    unfold Delivery.ahead
    rw [hstage, Delivery.resume_stage]
    dsimp only
    rw [hidx]
    exact Or.inr (Prod.Lex.right _ (Nat.lt_succ_self _))

/-- The next transition of the call that holds an answer commits it or brings it nearer. -/
theorem System.Settled.nearer (h : y.Settled) {i : Nat} (hc : y.calls[i]? = some c) {a : Trigger} (hans : a ∈ c.answers)
    (hloop : c.stage.loop? = some l) (ha : a ∈ l.queue) (horderly : y.Orderly (.advance i w))
    (hstep : y.step (.advance i w) = some z) : a ∈ z.store.journal c.instanceID ∨
      ∃ c', z.calls[i]? = some c' ∧ Prod.Lex (· < ·) (· < ·) (c'.ahead a) (c.ahead a) := by
  have hmem := List.mem_of_getElem? hc
  have hkept := h.kept c hmem
  have hd : c.deeds.committed ≠ [] := by
    intro hnil
    rw [hkept.early hnil] at hans
    cases hans
  have howes : c.owes = true := Delivery.owes_of_stage hd (Stage.owing_of_queue hloop (List.ne_nil_of_mem ha))
  have honly : ∀ l', c.stage.loop? = some l' → l' = l := fun l' hl' => Option.some.inj (hl'.symm.trans hloop)
  obtain ⟨c0, m, c', child, hc0, hdoes, rfl⟩ := System.advance_does hstep
  obtain rfl : c = c0 := Option.some.inj (hc.symm.trans hc0)
  have hnear := hdoes.nearer (h.sound.held c hmem) (horderly.2 c hc) howes
    (fun l' hl' => by
      cases hcreate : l'.create with
      | false => rfl
      | true => exact absurd (hkept.creates l' hl' hcreate) hd)
    ((h.safe c hmem).current howes) (fun l' hl' => honly l' hl' ▸ ha)
  refine hnear.imp id (fun hlt => ⟨c', ?_, hlt⟩)
  have hlen : i < y.calls.length := (List.getElem?_eq_some_iff.mp hc).1
  rw [List.getElem?_append_left (by rw [List.length_set]; exact hlen), List.getElem?_set_self hlen]

end Kept

theorem System.runs_settled (hrun : System.Runs System.Orderly (System.blank links) choices y) : y.Settled :=
  hrun.induction ⟨System.blank_sound links, (fun _ h => nomatch h), (fun _ h => nomatch h)⟩
    (fun h horderly hstep => h.step horderly hstep)

/-- In a run where no call is overtaken or fails while it owes a result, the trigger that performing a command gave is
committed, or a call that still runs holds it beside the stored state and every transition of that call brings it nearer
to its commit. -/
theorem answers_are_committed (hrun : System.Runs System.Orderly (System.blank links) choices y) {i : Nat}
    (hc : y.calls[i]? = some c) {a : Trigger} (ha : a ∈ c.answers) :
    a ∈ y.store.journal c.instanceID ∨
      (∃ l, c.stage.loop? = some l ∧ a ∈ l.queue ∧ y.store.instances c.instanceID = some ⟨l.st, l.token⟩) ∧
        ∀ w z, y.Orderly (.advance i w) → y.step (.advance i w) = some z → a ∈ z.store.journal c.instanceID ∨
          ∃ c', z.calls[i]? = some c' ∧ Prod.Lex (· < ·) (· < ·) (c'.ahead a) (c.ahead a) := by
  have hsettled := System.runs_settled hrun
  rcases hsettled.answer (List.mem_of_getElem? hc) ha with hin | ⟨l, hloop, hqueue, hst⟩
  · exact Or.inl hin
  · exact Or.inr ⟨⟨l, hloop, hqueue, hst⟩, fun w z horderly hstep => hsettled.nearer hc ha hloop hqueue horderly hstep⟩

/-- The call has returned. -/
def Delivery.returned (c : Delivery gen) : Bool :=
  match c.stage with
  | .done _ => true
  | _ => false

/-- The second call has answers, and has returned. -/
def answeredSecond (y : System none) : Bool :=
  match y.calls[1]? with
  | some c => !c.answers.isEmpty && c.returned
  | none => false

/-- The result of the action is committed by the call that ran it. -/
theorem approval_commits_its_answer : ∃ choices y c a,
    System.Runs System.Orderly (System.blank none : System none) choices y ∧
    y.calls[1]? = some c ∧ a ∈ c.answers ∧ a ∈ y.store.journal c.instanceID := by
  have hplay : System.plays System.Orderly (System.blank none)
      (startsApproval ++ [approve "i-h1" true, claim "i-h1", goesOn 1, goesOn 2, goesOn 2, goesOn 1,
        goesOn 1, goesOn 1, goesOn 1,
        goesOn 1, goesOn 1, goesOn 1, goesOn 1, goesOn 1, goesOn 1])
      answeredSecond = true := by decide
  obtain ⟨y, hrun, hQ⟩ := System.runs_of_plays hplay
  unfold answeredSecond at hQ
  split at hQ
  · rename_i c hc
    simp only [Bool.and_eq_true, Bool.not_eq_true', List.isEmpty_eq_false_iff] at hQ
    obtain ⟨hsome, hdone⟩ := hQ
    obtain ⟨a, ha⟩ := List.exists_mem_of_ne_nil _ hsome
    refine ⟨_, y, c, a, hrun, hc, ha, ?_⟩
    rcases answers_are_committed hrun hc ha with hin | ⟨⟨l, hloop, -⟩, -⟩
    · exact hin
    · unfold Delivery.returned at hdone
      split at hdone
      · rename_i result hstage
        rw [hstage] at hloop
        cases hloop
      · cases hdone
  · cases hQ

/-- A token of the stored instance waits for the id. -/
def storedWaits (y : System none) (instanceID id : String) : Bool :=
  match y.store.instances instanceID with
  | some inst => inst.state.tokens.any (fun tok => tok.state == .waiting && tok.awaitCommand == id)
  | none => false

/-- Every call has returned, the action ran, its result is in no journal, and the token still waits for it. -/
theorem overtaken_answer_is_lost : ∃ choices y c a id inst tok,
    System.Runs (fun _ _ => True) (System.blank none : System none) choices y ∧
    (∀ c' ∈ y.calls, ∃ result, c'.stage = .done result) ∧ c ∈ y.calls ∧ a ∈ c.answers ∧ a.body = .actionCompleted id [] ∧
    a ∉ y.store.journal c.instanceID ∧ y.store.instances c.instanceID = some inst ∧ tok ∈ inst.state.tokens ∧
    tok.state = .waiting ∧ tok.awaitCommand = id := by
  have hplay : System.plays (fun _ _ => True) (System.blank none) overtakes
      (fun y => y.calls.all (·.returned) &&
        y.calls.any (fun c => decide (⟨9, .actionCompleted "i-c1" []⟩ ∈ c.answers) &&
          decide (⟨9, .actionCompleted "i-c1" []⟩ ∉ y.store.journal c.instanceID) &&
          storedWaits y c.instanceID "i-c1")) = true := by decide
  obtain ⟨y, hrun, hQ⟩ := System.runs_of_plays hplay
  simp only [Bool.and_eq_true, List.all_eq_true, List.any_eq_true, decide_eq_true_eq] at hQ
  obtain ⟨hdone, c, hc, ⟨hans, hlost⟩, hstored⟩ := hQ
  unfold storedWaits at hstored
  split at hstored
  · rename_i inst hinst
    obtain ⟨tok, htok, hawaits⟩ := List.any_eq_true.mp hstored
    simp only [Bool.and_eq_true, beq_iff_eq] at hawaits
    refine ⟨_, y, c, _, _, inst, tok, hrun, ?_, hc, hans, rfl, hlost, hinst, htok, hawaits.1, hawaits.2⟩
    intro c' hc'
    have hstage := hdone c' hc'
    unfold Delivery.returned at hstage
    split at hstage
    · rename_i result hs
      exact ⟨result, hs⟩
    · cases hstage
  · cases hstored

end Wrkflw
