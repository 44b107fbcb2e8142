import Wrkflw.Property.Locks

/-!
# Failover of the leader

Any number of electors on one key, over every interleaving of their calls, heartbeats, lost connections and closes:
while no live session holds the lock, `IsLeader` makes every open elector whose own connection lives the leader; and a
run of the callback is due after a transition to leader, unless an earlier one was under way, which the transition is
coalesced into.

* `Elector.Led` : a leader whose session lives holds the lock;
* `becomesLeader` : a step is a transition to leader;
* `callback_due` : what the steps in between leave of a run that is due.
-/

namespace Wrkflw

open Library (Session Reply)

namespace Elector
variable {e e' : Elector} {free : Bool} {choice : ElectorChoice} {key : String}

/-- A new elector. -/
def Fresh (e : Elector) (key : String) : Prop := e = { dialect := e.dialect, key := key, onAcquire := e.onAcquire }

/-- A leader that is open and whose session lives holds the lock. -/
structure Led (e : Elector) (key : String) : Prop where
  key : e.key = key
  leads : e.closed = false → e.isLeader = true → e.session.alive = true → 0 < e.session.count e.key

theorem Fresh.led (h : e.Fresh key) : e.Led key := by
  rw [h]
  exact ⟨rfl, fun _ hl => by cases hl⟩

theorem finishClose_key (reply : Reply) : (e.finishClose reply).key = e.key := by
  unfold Elector.finishClose
  dsimp only
  split <;> (split <;> rfl)

theorem finishClose_closed (reply : Reply) : (e.finishClose reply).closed = e.closed := by
  unfold Elector.finishClose
  dsimp only
  split <;> (split <;> rfl)

theorem finishClose_callback (reply : Reply) : (e.finishClose reply).callback = e.callback := by
  unfold Elector.finishClose
  dsimp only
  split <;> (split <;> rfl)

theorem finishClose_isLeader (reply : Reply) (h : (e.finishClose reply).isLeader = true) : e.isLeader = true := by
  unfold Elector.finishClose at h
  dsimp only at h
  split at h
  · cases h
  · exact h

theorem Led.tryLead (h : e.Led key) (reply : Reply) : (e.tryLead free reply).Led key := by
  obtain hsame | ⟨hopen, hl, ⟨ha, heq⟩ | ⟨-, heq⟩⟩ := tryLead_cases e free reply
  · rw [hsame]
    exact h
  · rw [heq]
    refine ⟨h.key, fun _ _ _ => ?_⟩
    rw [Session.count_lock, if_pos rfl]
    exact Nat.succ_pos _
  · rw [heq]
    exact ⟨h.key, fun _ hl' => by cases hl.symm.trans hl'⟩

theorem Led.next (h : e.Led key) (hnext : e.next free choice = some e') : e'.Led key := by
  unfold Elector.next at hnext
  split at hnext
  · cases hnext
    exact h.tryLead _
  · cases hnext
    unfold Elector.revalidate
    split
    · exact h
    · split
      · exact h
      · exact ⟨h.key, fun _ hl => by cases hl⟩
  · split at hnext <;> cases hnext
    exact ⟨h.key, h.leads⟩
  · split at hnext <;> cases hnext
    exact ⟨h.key, h.leads⟩
  · split at hnext <;> cases hnext
    exact ⟨h.key, h.leads⟩
  · split at hnext <;> cases hnext
    exact ⟨h.key, fun hopen => by cases hopen⟩
  · split at hnext
    · rename_i hc
      cases hnext
      have hclosed : e.closed = true := by simp_all
      refine ⟨(finishClose_key _).trans h.key, fun hopen => ?_⟩
      rw [finishClose_closed, hclosed] at hopen
      cases hopen
    · cases hnext
  · split at hnext <;> cases hnext
    exact ⟨h.key, fun _ _ ha => by cases ha⟩

/-- With the lock free and a live connection, `IsLeader` makes the elector the leader. -/
theorem Led.leads_next (h : e.Led key) (hopen : e.closed = false) (ha : e.session.alive = true) (hno : e.holds = false) :
    (e.tryLead true .works).isLeader = true ∧ (e.tryLead true .works).holds = true := by
  have hl : e.isLeader = false := by
    cases hl : e.isLeader with
    | false => rfl
    | true =>
      have hpos := h.leads hopen hl ha
      simp [Elector.holds, ha, hpos] at hno
  have heq : e.tryLead true .works =
      { e with session := e.session.lock e.key, isLeader := true, callback := e.fired } := by
    unfold Elector.tryLead
    simp [hopen, hl, ha, Session.reached, Session.answered, Session.granted, Reply.took, fireOnAcquire_eq, fired, acquiring]
  rw [heq]
  refine ⟨rfl, ?_⟩
  have halive : (e.session.lock e.key).alive = true := ha
  simp [Elector.holds, halive, Session.count_lock]

/-- A transition to leader launches the callback, unless its goroutine has yet to end. -/
theorem fired_launched (hon : e.onAcquire = true) : e.fired = .launched ↔ e.callback = .idle ∨ e.callback = .launched := by
  unfold fired acquiring
  rw [hon]
  cases e.callback <;> decide

/-- What a step does to the callback. -/
theorem next_callback (hnext : e.next free choice = some e') :
    (e.isLeader = false ∧ e'.isLeader = true ∧ e'.callback = e.fired) ∨
    (¬ (e.isLeader = false ∧ e'.isLeader = true) ∧
      (choice ≠ .callbackBegins → (e'.callback = .launched ↔ e.callback = .launched))) := by
  have hstays : ¬ (e.isLeader = false ∧ e.isLeader = true) := fun h => by cases h.1.symm.trans h.2
  unfold Elector.next at hnext
  split at hnext
  · rename_i reply
    cases hnext
    obtain hsame | ⟨-, hl, ⟨-, heq⟩ | ⟨-, heq⟩⟩ := tryLead_cases e free reply
    · rw [hsame]
      exact .inr ⟨hstays, fun _ => Iff.rfl⟩
    · rw [heq]
      exact .inl ⟨hl, rfl, rfl⟩
    · rw [heq]
      exact .inr ⟨hstays, fun _ => Iff.rfl⟩
  · cases hnext
    refine .inr ?_
    unfold Elector.revalidate
    split
    · exact ⟨hstays, fun _ => Iff.rfl⟩
    · split
      · exact ⟨hstays, fun _ => Iff.rfl⟩
      · exact ⟨fun h => (by cases h.2), fun _ => Iff.rfl⟩
  · split at hnext <;> cases hnext
    exact .inr ⟨hstays, fun h => absurd rfl h⟩
  · split at hnext <;> cases hnext
    rename_i hrunning
    refine .inr ⟨hstays, fun _ => ?_⟩
    rw [hrunning]
    exact iff_of_false (fun h => by cases h) (fun h => by cases h)
  · split at hnext <;> cases hnext
    rename_i hreturned
    refine .inr ⟨hstays, fun _ => ?_⟩
    rw [hreturned]
    exact iff_of_false (fun h => by cases h) (fun h => by cases h)
  · split at hnext <;> cases hnext
    exact .inr ⟨hstays, fun _ => Iff.rfl⟩
  · rename_i reply
    split at hnext <;> cases hnext
    refine .inr ⟨fun h => ?_, fun _ => ?_⟩
    · have := finishClose_isLeader (e := e) reply h.2
      cases h.1.symm.trans this
    · rw [finishClose_callback]
  · split at hnext <;> cases hnext
    exact .inr ⟨hstays, fun _ => Iff.rfl⟩

theorem begins_iff (free : Bool) : (∃ e', e.next free .callbackBegins = some e') ↔ e.callback = .launched := by
  unfold Elector.next
  dsimp only
  split
  · rename_i h
    exact iff_of_true ⟨_, rfl⟩ h
  · rename_i h
    exact iff_of_false (fun ⟨_, h⟩ => by cases h) h

end Elector

/-! ## Any number of electors -/

section
variable {es es' : List Elector} {e : Elector} {key : String} {i : Nat} {choice : Nat × ElectorChoice}

theorem electorsStep_some (h : electorsStep es choice = some es') :
    ∃ e e', es[choice.1]? = some e ∧ e.next (electorsFree es choice.1) choice.2 = some e' ∧ es' = es.set choice.1 e' := by
  unfold electorsStep at h
  obtain ⟨e, he, h⟩ := Option.bind_eq_some_iff.mp h
  obtain ⟨e', hnext, h⟩ := Option.bind_eq_some_iff.mp h
  cases h
  exact ⟨e, e', he, hnext, rfl⟩

theorem electorsStep_of_next {e' : Elector} {c : ElectorChoice} (he : es[i]? = some e)
    (h : e.next (electorsFree es i) c = some e') : electorsStep es (i, c) = some (es.set i e') := by
  unfold electorsStep
  simp only [he, h, Option.bind_eq_bind, Option.bind_some]
  rfl

/-- An elector goes on by its own step, or stays as it is. -/
theorem electorsStep_at (h : electorsStep es choice = some es') (he : es[i]? = some e) :
    (choice.1 ≠ i ∧ es'[i]? = some e) ∨
    (choice.1 = i ∧ ∃ e', e.next (electorsFree es i) choice.2 = some e' ∧ es'[i]? = some e') := by
  obtain ⟨e1, e', he1, hnext, rfl⟩ := electorsStep_some h
  by_cases hi : choice.1 = i
  · subst hi
    rw [he] at he1
    cases he1
    refine .inr ⟨rfl, e', hnext, ?_⟩
    rw [List.getElem?_set_self (List.getElem?_eq_some_iff.mp he).1]
  · refine .inl ⟨hi, ?_⟩
    rw [List.getElem?_set_ne hi]
    exact he

theorem led_of_runs {new : List Elector} {choices : List (Nat × ElectorChoice)} (hnew : ∀ e ∈ new, e.Fresh key)
    (hrun : Library.Runs electorsStep (fun _ _ => True) new choices es) : ∀ e ∈ es, e.Led key := by
  refine hrun.invariant (I := fun es => ∀ e ∈ es, e.Led key) (fun e he => (hnew e he).led) ?_
  intro es es' choice hall _ hs e he
  obtain ⟨e1, e', he1, hnext, rfl⟩ := electorsStep_some hs
  rcases List.mem_or_eq_of_mem_set he with he | rfl
  · exact hall e he
  · exact (hall e1 (List.mem_of_getElem? he1)).next hnext

/-- With no live session on the lock, it is free. -/
theorem electorsFree_of_none (h : ∀ e ∈ es, e.holds = false) (i : Nat) : electorsFree es i = true := by
  refine List.all_eq_true.mpr (fun j _ => ?_)
  cases hj : es[j]? with
  | none => simp
  | some e => simp [h e (List.mem_of_getElem? hj)]

/-- The step makes the elector the leader. -/
def becomesLeader (i : Nat) (es : List Elector) (choice : Nat × ElectorChoice) : Prop :=
  ∃ es' e e', electorsStep es choice = some es' ∧ es[i]? = some e ∧ es'[i]? = some e' ∧
    e.isLeader = false ∧ e'.isLeader = true

/-- The step neither begins a run of the elector's callback nor makes it the leader. -/
def Between (i : Nat) (es : List Elector) (choice : Nat × ElectorChoice) : Prop :=
  choice ≠ (i, .callbackBegins) ∧ ¬ becomesLeader i es choice

/-- A run that is due stays due until it begins, and none falls due in between. -/
theorem callback_due {later : List (Nat × ElectorChoice)} (hrun : Library.Runs electorsStep (Between i) es later es')
    (he : es[i]? = some e) : ∃ e', es'[i]? = some e' ∧ (e'.callback = .launched ↔ e.callback = .launched) := by
  refine hrun.invariant (I := fun es' => ∃ e', es'[i]? = some e' ∧ (e'.callback = .launched ↔ e.callback = .launched))
    ⟨e, he, Iff.rfl⟩ ?_
  rintro y z choice ⟨e1, he1, hcallback⟩ ⟨hbegins, hleads⟩ hs
  obtain ⟨-, hsame⟩ | ⟨hi, e', hnext, he'⟩ := electorsStep_at hs he1
  · exact ⟨e1, hsame, hcallback⟩
  · refine ⟨e', he', ?_⟩
    obtain ⟨hl, hl', -⟩ | ⟨-, hkept⟩ := Elector.next_callback hnext
    · exact absurd ⟨z, e1, e', hs, he1, he', hl, hl'⟩ hleads
    · refine (hkept (fun hc => hbegins ?_)).trans hcallback
      rw [← hi, ← hc]

theorem electorsStep_begins (he : es[i]? = some e) :
    (∃ begun, electorsStep es (i, .callbackBegins) = some begun) ↔ e.callback = .launched := by
  refine Iff.trans ⟨?_, ?_⟩ (Elector.begins_iff (electorsFree es i))
  · rintro ⟨begun, hs⟩
    obtain ⟨e1, e', he1, hnext, -⟩ := electorsStep_some hs
    cases he.symm.trans he1
    exact ⟨e', hnext⟩
  · rintro ⟨e', hnext⟩
    exact ⟨_, electorsStep_of_next he hnext⟩

/-- After a transition to leader a run is due, unless one was under way. -/
theorem begins_after_leading {es'' : List Elector} {later : List (Nat × ElectorChoice)} (hon : e.onAcquire = true)
    (hleads : becomesLeader i es choice) (hs : electorsStep es choice = some es') (he : es[i]? = some e)
    (hlater : Library.Runs electorsStep (Between i) es' later es'') :
    (∃ begun, electorsStep es'' (i, .callbackBegins) = some begun) ↔ e.callback = .idle ∨ e.callback = .launched := by
  obtain ⟨es1, e1, e', hs1, he1, he', hl, hl'⟩ := hleads
  cases hs.symm.trans hs1
  cases he.symm.trans he1
  obtain ⟨e2, he2, hcallback⟩ := callback_due hlater he'
  rw [electorsStep_begins he2, hcallback, ← Elector.fired_launched hon]
  obtain ⟨-, hsame⟩ | ⟨-, e3, hnext, he3⟩ := electorsStep_at hs he
  · cases hsame.symm.trans he'
    cases hl.symm.trans hl'
  · cases he3.symm.trans he'
    obtain ⟨-, -, hfired⟩ | ⟨hno, -⟩ := Elector.next_callback hnext
    · rw [hfired]
    · exact absurd ⟨hl, hl'⟩ hno

end

/-- **Failover** of any number of electors on one key, in every state that they reach. An `IsLeader` call makes an open
elector whose own connection lives the leader while no live session holds the lock. And from a transition to leader on,
until a run of the callback begins or the elector leads anew, a run can begin if and only if none was under way. -/
theorem leader_fails_over {key : String} {new es : List Elector} {choices : List (Nat × ElectorChoice)}
    {i : Nat} {e : Elector}
    (hnew : ∀ e ∈ new, e.Fresh key) (hrun : Library.Runs electorsStep (fun _ _ => True) new choices es)
    (he : es[i]? = some e) :
    (e.closed = false → (∀ e ∈ es, e.holds = false) → e.session.alive = true →
      ∃ es' e', electorsStep es (i, .isLeader .works) = some es' ∧ es'[i]? = some e' ∧
        e'.isLeader = true ∧ e'.holds = true) ∧
    (∀ choice es', e.onAcquire = true → becomesLeader i es choice → electorsStep es choice = some es' →
      ∀ later es'', Library.Runs electorsStep (Between i) es' later es'' →
        ((∃ begun, electorsStep es'' (i, .callbackBegins) = some begun) ↔
          e.callback = .idle ∨ e.callback = .launched)) := by
  have hled := led_of_runs hnew hrun e (List.mem_of_getElem? he)
  constructor
  · intro hopen hnone ha
    have hnext : e.next (electorsFree es i) (.isLeader .works) = some (e.tryLead true .works) := by
      rw [electorsFree_of_none hnone]
      rfl
    obtain ⟨hl, hholds⟩ := hled.leads_next hopen ha (hnone e (List.mem_of_getElem? he))
    refine ⟨_, _, electorsStep_of_next he hnext, ?_, hl, hholds⟩
    rw [List.getElem?_set_self (List.getElem?_eq_some_iff.mp he).1]
  · intro choice es' hon hleads hs later es'' hlater
    exact begins_after_leading hon hleads hs he hlater

theorem fresh_postgres (key : String) (n : Nat) :
    ∀ e ∈ List.replicate n ({ key := key, onAcquire := true } : Elector), e.Fresh key := by
  intro e he
  rw [(List.mem_replicate.mp he).2]
  rfl

/-- The leader loses its connection, and the other elector takes over. -/
theorem follower_takes_over : ∃ es es' e', Library.Runs electorsStep (fun _ _ => True)
    (List.replicate 2 ({ key := "leader", onAcquire := true } : Elector)) [(0, .isLeader .works), (0, .sever)] es ∧
    electorsStep es (1, .isLeader .works) = some es' ∧ es'[1]? = some e' ∧ e'.isLeader = true ∧ e'.holds = true := by
  have hplay : Library.plays electorsStep (fun _ _ => True)
      (List.replicate 2 ({ key := "leader", onAcquire := true } : Elector)) [(0, .isLeader .works), (0, .sever)]
      (fun es => (es[1]?).any (fun e => !e.closed && e.session.alive) && es.all (fun e => !e.holds)) = true := by decide
  obtain ⟨es, hrun, hQ⟩ := Library.runs_of_plays hplay
  obtain ⟨hone, hnone⟩ := Bool.and_eq_true_iff.mp hQ
  obtain ⟨e, he, hQ⟩ := (Option.any_eq_true _ _).mp hone
  obtain ⟨hopen, ha⟩ : e.closed = false ∧ e.session.alive = true := by simpa using hQ
  obtain ⟨es', e', hs, he', hl, hholds⟩ := (leader_fails_over (fresh_postgres "leader" 2) hrun he).1 hopen
    (fun e he => by simpa using List.all_eq_true.mp hnone e he) ha
  exact ⟨es, es', e', hrun, hs, he', hl, hholds⟩

theorem Elector.dead_never_leads {e : Elector} {free : Bool} (hl : e.isLeader = false) (ha : e.session.alive = false)
    (reply : Reply) : (e.tryLead free reply).isLeader = false := by
  obtain hsame | ⟨-, -, ⟨hanswered, -⟩ | ⟨-, heq⟩⟩ := tryLead_cases e free reply
  · rw [hsame]
    exact hl
  · simp [Session.answered, ha] at hanswered
  · rw [heq]
    exact hl

/-- A lone elector whose connection was lost never leads again, though nobody holds the lock; and one that steps down
and leads again while its callback runs has no run of it begin. -/
theorem failover_misses :
    (∃ choices es e, Library.Runs electorsStep (fun _ _ => True)
      (List.replicate 1 ({ key := "leader", onAcquire := true } : Elector)) choices es ∧ es[0]? = some e ∧
      e.closed = false ∧ (∀ e ∈ es, e.holds = false) ∧
      ∀ reply es' e', electorsStep es (0, .isLeader reply) = some es' → es'[0]? = some e' → e'.isLeader = false) ∧
    (∃ choices es es' choice, Library.Runs electorsStep (fun _ _ => True)
      (List.replicate 1 ({ key := "leader", onAcquire := true } : Elector)) choices es ∧
      electorsStep es choice = some es' ∧ becomesLeader 0 es choice ∧
      ∀ later es'', Library.Runs electorsStep (Between 0) es' later es'' →
        ¬ ∃ begun, electorsStep es'' (0, .callbackBegins) = some begun) := by
  constructor
  · have hplay : Library.plays electorsStep (fun _ _ => True)
        (List.replicate 1 ({ key := "leader", onAcquire := true } : Elector))
        [(0, .isLeader .works), (0, .sever), (0, .heartbeat .works)]
        (fun es => (es[0]?).any (fun e => !e.closed && (!e.isLeader && !e.session.alive)) && es.all (fun e => !e.holds)) =
        true := by decide
    obtain ⟨es, hrun, hQ⟩ := Library.runs_of_plays hplay
    obtain ⟨hzero, hnone⟩ := Bool.and_eq_true_iff.mp hQ
    obtain ⟨e, he, hQ⟩ := (Option.any_eq_true _ _).mp hzero
    obtain ⟨hopen, hl, ha⟩ : e.closed = false ∧ e.isLeader = false ∧ e.session.alive = false := by simpa using hQ
    refine ⟨_, es, e, hrun, he, hopen, fun e he => by simpa using List.all_eq_true.mp hnone e he, ?_⟩
    intro reply es' e' hs he'
    obtain ⟨hne, -⟩ | ⟨-, e1, hnext, he1⟩ := electorsStep_at hs he
    · exact absurd rfl hne
    · cases he1.symm.trans he'
      cases hnext
      exact Elector.dead_never_leads hl ha reply
  · have hplay : Library.plays electorsStep (fun _ _ => True)
        (List.replicate 1 ({ key := "leader", onAcquire := true } : Elector))
        [(0, .isLeader .works), (0, .callbackBegins), (0, .heartbeat (.fails false))]
        (fun es => (es[0]?).any (fun e => e.onAcquire && (!e.isLeader && e.callback == .running)) &&
          (electorsStep es (0, .isLeader .works)).any (fun es' => (es'[0]?).any (·.isLeader))) = true := by decide
    obtain ⟨es, hrun, hQ⟩ := Library.runs_of_plays hplay
    obtain ⟨hzero, hleads⟩ := Bool.and_eq_true_iff.mp hQ
    obtain ⟨e, he, hQ⟩ := (Option.any_eq_true _ _).mp hzero
    obtain ⟨hon, hl, hrunning⟩ : e.onAcquire = true ∧ e.isLeader = false ∧ e.callback = .running := by simpa using hQ
    obtain ⟨es', hs, hleads⟩ := (Option.any_eq_true _ _).mp hleads
    obtain ⟨e', he', hl'⟩ := (Option.any_eq_true _ _).mp hleads
    have hbecomes : becomesLeader 0 es (0, .isLeader .works) := ⟨es', e, e', hs, he, he', hl, hl'⟩
    refine ⟨_, es, es', _, hrun, hs, hbecomes, fun later es'' hlater hbegins => ?_⟩
    have := (begins_after_leading hon hbecomes hs he hlater).mp hbegins
    rw [hrunning] at this
    rcases this with h | h <;> cases h

end Wrkflw
