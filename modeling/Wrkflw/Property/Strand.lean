import Wrkflw.Property.Delivery

/-!
# A command that fails

`deliverLoop` returns when performing a command fails. The step is committed by then, so the commands after it and the
triggers in the local queue go with the call: the attempt is over, and nothing else knows of them.

* `System.StillDoes` : the attempt goes on to perform the commands and to commit the triggers;
* `Delivery.attempt_over` : an attempt that has ended does nothing more;
* `failing_command_strands_nothing_iff` : a command that fails strands nothing exactly when nothing was left.
-/

namespace Wrkflw

variable {gen : Option IDGenerator}

/-- A token waits for what performing the command brings. -/
def Command.bearsToken : Command → Bool
  | .invokeAction _ _ _ fireAndForget => !fireAndForget
  | .awaitHuman .. | .startSubInstance .. => true
  | _ => false

/-- What the call has done in its attempts, from the first on. -/
def Delivery.attempt (c : Delivery gen) (n : Nat) : Option Deeds := (c.lost ++ [c.deeds])[n]?

/-- Performing the command fails. -/
def Delivery.PerformFails (c : Delivery gen) (m : MemInstanceStore) (w : World) (l : Loop) (cmd : Command) : Prop :=
  ∃ e, c.driver.perform w (m.callLinks.getD []) c.depth c.definition l.st cmd = .error e

/-- From here on the attempt that `c` is in comes to perform each of the commands a token waits for, and to commit each of
the triggers. -/
def System.StillDoes (y : System gen) (i : Nat) (c : Delivery gen) (commands : List Command) (queue : List Trigger) : Prop :=
  ∃ choices z c' deeds, System.Runs (fun _ _ => True) y choices z ∧ z.calls[i]? = some c' ∧
    c'.attempt c.lost.length = some deeds ∧
    (∀ cmd ∈ commands, cmd.bearsToken = true → cmd ∈ deeds.dispatched.drop c.deeds.dispatched.length) ∧
    ∀ t ∈ queue, t ∈ deeds.committed.drop c.deeds.committed.length

section Attempts
variable {y z : System gen} {w : World} {m : MemInstanceStore} {c c' : Delivery gen}
  {child : Option (Delivery gen)} {i n : Nat}

theorem Delivery.returns_lost (e : DriverError) : c.lost <+: (c.returns e).lost := by
  unfold Delivery.returns
  split
  · split
    · exact List.prefix_append _ _
    · exact List.prefix_append _ _
  · exact List.prefix_refl _

/-- What was lost stays on record. -/
theorem Delivery.Does.lost (h : c.Does y w m c' child) : c.lost <+: c'.lost := by
  cases h with
  | notFound hstage e he => exact Delivery.returns_lost e
  | refused l hstage t queue hqueue e hprep => exact Delivery.returns_lost e
  | loses l hstage t queue hqueue r outcome hprep e hwrite => exact Delivery.returns_lost _
  | timersFail l hstage t queue hqueue r outcome hprep m version hwrite e hfail =>
    exact @Delivery.returns_lost gen (c.notesCommit t) _
  | performFails l cmd commands hstage e pre hfail => exact @Delivery.returns_lost gen (c.notesDispatch cmd) _
  | performs l cmd commands hstage t hanswers =>
    cases t <;> exact List.prefix_refl _
  | resumes l commandID childID commands callee hstage t =>
    cases t <;> exact List.prefix_refl _
  | _ => exact List.prefix_refl _

/-- The attempt is behind the call. -/
def Delivery.Past (c : Delivery gen) (n : Nat) : Prop := n < c.lost.length ∨ c.lost.length = n ∧ ∃ r, c.stage = .done r

theorem Delivery.attempt_lt (h : n < c.lost.length) : c.attempt n = c.lost[n]? := by
  unfold Delivery.attempt
  exact List.getElem?_append_left h

/-- A call leaves an attempt that is over as it was. -/
theorem Delivery.Does.past (h : c.Does y w m c' child) (hpast : c.Past n) : c'.Past n ∧ c'.attempt n = c.attempt n := by
  rcases hpast with hlt | ⟨-, r, hdone⟩
  · have hpre := h.lost
    have hlt' : n < c'.lost.length := lt_of_lt_of_le hlt hpre.length_le
    refine ⟨Or.inl hlt', ?_⟩
    rw [Delivery.attempt_lt hlt, Delivery.attempt_lt hlt']
    obtain ⟨rest, hrest⟩ := hpre
    rw [← hrest, List.getElem?_append_left hlt]
  · exact (h.not_done hdone).elim

/-- An attempt that has ended does nothing more in any run. -/
theorem Delivery.attempt_over {choices : List (Choice gen)} (hrun : System.Runs (fun _ _ => True) y choices z)
    (hc : y.calls[i]? = some c) (hpast : c.Past n) :
    ∃ c', z.calls[i]? = some c' ∧ c'.Past n ∧ c'.attempt n = c.attempt n := by
  refine System.Runs.induction (I := fun z => ∃ c', z.calls[i]? = some c' ∧ c'.Past n ∧ c'.attempt n = c.attempt n) hrun
    ⟨c, hc, hpast, rfl⟩ ?_
  rintro y z choice ⟨c', hc', hpast', hsame⟩ - hstep
  have hlt : i < y.calls.length := (List.getElem?_eq_some_iff.mp hc').1
  cases choice with
  | apply driver d instanceID trg retrying =>
    cases hstep
    exact ⟨c', (List.getElem?_append_left hlt).trans hc', hpast', hsame⟩
  | start driver d instanceID at_ vars startNodeID =>
    cases hstep
    exact ⟨c', (List.getElem?_append_left hlt).trans hc', hpast', hsame⟩
  | markNotified childID =>
    cases hstep
    exact ⟨c', hc', hpast', hsame⟩
  | advance j w =>
    obtain ⟨c0, m, c1, child, hget, hdoes, rfl⟩ := System.advance_does hstep
    have hset : (y.calls.set j c1 ++ child.toList)[i]? = (y.calls.set j c1)[i]? :=
      List.getElem?_append_left (by rw [List.length_set]; exact hlt)
    by_cases hij : j = i
    · subst hij
      obtain rfl := Option.some.inj (hget.symm.trans hc')
      obtain ⟨hnow, heq⟩ := hdoes.past hpast'
      exact ⟨c1, hset.trans (List.getElem?_set_self hlt), hnow, heq.trans hsame⟩
    · exact ⟨c', hset.trans ((List.getElem?_set_ne hij).trans hc'), hpast', hsame⟩

/-- An error ends the attempt. -/
theorem Delivery.returns_past (e : DriverError) :
    (c.returns e).Past c.lost.length ∧ (c.returns e).attempt c.lost.length = some c.deeds := by
  unfold Delivery.returns
  split
  · split
    · refine ⟨Or.inl (by simp), ?_⟩
      simp [Delivery.attempt]
    · refine ⟨Or.inl (by simp), ?_⟩
      simp [Delivery.attempt]
  · refine ⟨Or.inr ⟨rfl, _, rfl⟩, ?_⟩
    simp [Delivery.attempt]

end Attempts

section Fails
variable {y z : System gen} {w : World} {c : Delivery gen} {i : Nat} {l : Loop} {cmd : Command} {commands : List Command}

/-- A command that fails ends the attempt with the commands before it. -/
theorem System.advance_fails (hc : y.calls[i]? = some c) (hstage : c.stage = .perform l (cmd :: commands))
    (hfails : c.PerformFails y.store w l cmd) (hz : y.advance i w = some z) :
    ∃ e, z.calls[i]? = some ((c.notesDispatch cmd).returns e) := by
  obtain ⟨e, he⟩ := hfails
  have htimer : cmd.ofTimer = false := by
    unfold ProcessDriver.perform at he
    cases cmd with
    | scheduleTimer timerID token trigger kind => cases he
    | cancelTimer timerID => cases he
    | _ => rfl
  have hlt : i < y.calls.length := (List.getElem?_eq_some_iff.mp hc).1
  have hdriver : (c.notesDispatch cmd).driver.perform w (y.store.callLinks.getD []) (c.notesDispatch cmd).depth
      (c.notesDispatch cmd).definition l.st cmd = .error e := he
  have hperforms : c.performs w y.store y.calls.length l cmd commands = ((c.notesDispatch cmd).returns e, none) := by
    unfold Delivery.performs
    rw [if_neg (by rw [htimer]; exact Bool.false_ne_true)]
    dsimp only
    rw [hdriver]
  unfold System.advance at hz
  rw [hc] at hz
  dsimp only at hz
  rw [hstage] at hz
  dsimp only at hz
  rw [hperforms] at hz
  cases hz
  refine ⟨e, ?_⟩
  rw [Option.toList_none, List.append_nil]
  exact List.getElem?_set_self hlt

/-- What the attempt still does after a command failed was nothing. -/
theorem System.StillDoes.nothing_left (hc : y.calls[i]? = some c) (hstage : c.stage = .perform l (cmd :: commands))
    (hfails : c.PerformFails y.store w l cmd) (hz : y.advance i w = some z)
    (h : z.StillDoes i (c.notesDispatch cmd) commands l.queue) :
    (∀ cmd' ∈ commands, cmd'.bearsToken = false) ∧ l.queue = [] := by
  obtain ⟨e, hc'⟩ := System.advance_fails hc hstage hfails hz
  obtain ⟨hpast, hattempt⟩ := @Delivery.returns_past gen (c.notesDispatch cmd) e
  obtain ⟨choices, z', c'', deeds, hrun, hget, hdeeds, hcommands, hqueue⟩ := h
  obtain ⟨c1, hget1, -, hsame⟩ := Delivery.attempt_over hrun hc' hpast
  obtain rfl := Option.some.inj (hget.symm.trans hget1)
  rw [hsame, hattempt] at hdeeds
  obtain rfl := Option.some.inj hdeeds
  rw [List.drop_length] at hcommands hqueue
  refine ⟨fun cmd' hcmd' => ?_, List.eq_nil_iff_forall_not_mem.mpr (fun t ht => List.not_mem_nil (hqueue t ht))⟩
  rw [← Bool.not_eq_true]
  exact fun hbears => List.not_mem_nil (hcommands cmd' hcmd' hbears)

/-- The commands a token waits for and the triggers that were left when a command failed are performed and committed by the
attempt exactly when there were none. -/
theorem failing_command_strands_nothing_iff (hc : y.calls[i]? = some c) (hstage : c.stage = .perform l (cmd :: commands))
    (hfails : c.PerformFails y.store w l cmd) (hz : y.advance i w = some z) :
    z.StillDoes i (c.notesDispatch cmd) commands l.queue ↔ (∀ cmd' ∈ commands, cmd'.bearsToken = false) ∧ l.queue = [] := by
  refine ⟨fun h => h.nothing_left hc hstage hfails hz, ?_⟩
  rintro ⟨hcommands, hqueue⟩
  obtain ⟨e, hc'⟩ := System.advance_fails hc hstage hfails hz
  obtain ⟨-, hattempt⟩ := @Delivery.returns_past gen (c.notesDispatch cmd) e
  refine ⟨[], z, _, (c.notesDispatch cmd).deeds, .refl, hc', hattempt, fun cmd' hcmd' hbears => ?_, fun t ht => ?_⟩
  · rw [hcommands cmd' hcmd'] at hbears
    cases hbears
  · rw [hqueue] at ht
    cases ht

end Fails

/-- The task store does not answer. -/
def storeDown : World := { now := 9, fuel := 50, failure := some { text := "task store down" } }

/-- The call at a place performs a command on a store next, and this of the commands and the queue behind it. -/
def System.performsBefore (i : Nat) (rest : List Command → List Trigger → Bool) (y : System none) : Bool :=
  match y.calls[i]? with
  | some c =>
    match c.stage with
    | .perform l (cmd :: commands) => (ProcessDriver.performsOn cmd).isSome && rest commands l.queue
    | _ => false
  | none => false

/-- There the command fails when the store is down. -/
theorem System.performsBefore_fails {i : Nat} {rest : List Command → List Trigger → Bool} {y : System none}
    (h : y.performsBefore i rest = true) : ∃ c l cmd commands z, y.calls[i]? = some c ∧
      c.stage = .perform l (cmd :: commands) ∧
      c.PerformFails y.store storeDown l cmd ∧ y.advance i storeDown = some z ∧ rest commands l.queue = true := by
  unfold System.performsBefore at h
  split at h
  · rename_i c hc
    split at h
    · rename_i l cmd commands hstage
      rw [Bool.and_eq_true, Option.isSome_iff_exists] at h
      obtain ⟨⟨pre, hpre⟩, hrest⟩ := h
      have hfails : c.PerformFails y.store storeDown l cmd := by
        refine ⟨DriverError.wrap pre { text := "task store down" }, ?_⟩
        unfold ProcessDriver.perform
        rw [hpre]
        rfl
      have hnext : ∃ z, y.advance i storeDown = some z := by
        unfold System.advance
        rw [hc]
        dsimp only
        rw [hstage]
        exact ⟨_, rfl⟩
      obtain ⟨z, hz⟩ := hnext
      exact ⟨c, l, cmd, commands, z, hc, hstage, hfails, hz, hrest⟩
    · cases h
  · cases h

/-- The only command of the first step fails, and strands nothing. -/
theorem lone_command_strands_nothing : ∃ choices y z c l cmd commands,
    System.Runs (fun _ _ => True) (System.blank none : System none) choices y ∧ y.calls[0]? = some c ∧
      c.stage = .perform l (cmd :: commands) ∧ c.PerformFails y.store storeDown l cmd ∧ y.advance 0 storeDown = some z ∧
      z.StillDoes 0 (c.notesDispatch cmd) commands l.queue := by
  have hplay : System.plays (fun _ _ => True) (System.blank none) (startsApproval.take 2)
      (System.performsBefore 0 (fun commands queue => commands.isEmpty && queue.isEmpty)) = true := by decide
  obtain ⟨y, hrun, hQ⟩ := System.runs_of_plays hplay
  obtain ⟨c, l, cmd, commands, z, hc, hstage, hfails, hz, hrest⟩ := System.performsBefore_fails hQ
  rw [Bool.and_eq_true, List.isEmpty_iff, List.isEmpty_iff] at hrest
  obtain ⟨rfl, hqueue⟩ := hrest
  have hnone : ∀ cmd' ∈ ([] : List Command), cmd'.bearsToken = false := fun _ h => nomatch h
  exact ⟨_, y, z, c, l, cmd, [], hrun, hc, hstage, hfails, hz,
    (failing_command_strands_nothing_iff hc hstage hfails hz).mpr ⟨hnone, hqueue⟩⟩

/-- The first task is completed, and its record cannot be written: the second task and the action beside it are never begun,
though their tokens are stored as waiting. -/
theorem failing_command_strands_others : ∃ choices y z c l cmd commands,
    System.Runs (fun _ _ => True) (System.blank none : System none) choices y ∧ y.calls[1]? = some c ∧
      c.stage = .perform l (cmd :: commands) ∧ c.PerformFails y.store storeDown l cmd ∧ y.advance 1 storeDown = some z ∧
      ¬ z.StillDoes 1 (c.notesDispatch cmd) commands l.queue := by
  have hplay : System.plays (fun _ _ => True) (System.blank none)
    (startsApproval ++ [approve "i-h1" false, goesOn 1, goesOn 1])
      (System.performsBefore 1 (fun commands _ => commands.any Command.bearsToken)) = true := by decide
  obtain ⟨y, hrun, hQ⟩ := System.runs_of_plays hplay
  obtain ⟨c, l, cmd, commands, z, hc, hstage, hfails, hz, hrest⟩ := System.performsBefore_fails hQ
  refine ⟨_, y, z, c, l, cmd, commands, hrun, hc, hstage, hfails, hz, fun hdoes => ?_⟩
  obtain ⟨cmd', hcmd', hbears⟩ := List.any_eq_true.mp hrest
  rw [(hdoes.nothing_left hc hstage hfails hz).1 cmd' hcmd'] at hbears
  cases hbears

end Wrkflw
