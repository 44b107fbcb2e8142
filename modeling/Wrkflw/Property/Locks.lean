import Wrkflw.Scheduler.Elector
import Wrkflw.Scheduler.Ownership
import Wrkflw.Library.Runs

/-!
# Locks that outlive their holders

A connection goes back to the pool with no lock of the component on its session, in every run whose releases are in
order: nothing is held that the component does not know of, and the unlock reaches the server. `Close` of the Postgres
elector unlocks only while the flag is set, so a lock it still holds after a step-down stays; a try that fails after the
server granted it leaves a lock that nothing records.

* `Elector.inOrder`, `Ownership.inOrder`, `SchedulerLock.inOrder` : the condition on a step that releases;
* `Elector.Bound`, `Ownership.Bound`, `SchedulerLock.Bound` : the locks a session can hold at all.
-/

namespace Wrkflw

open Library (Session Reply)

section
variable {σ τ : Type} (next : σ → τ → Option σ) (inOrder : σ → τ → Bool) (released : σ → Bool) (session : σ → Session String)

/-- The session is idle once its connection is back, along every run in order; and the step that gives the connection
back leaves the session idle if and only if it is in order. -/
def ReleasesInOrder (x : σ) : Prop :=
  (∀ choices y, Library.Runs next (fun y choice => inOrder y choice = true) x choices y → released y = true →
    (session y).Idle) ∧
  (∀ choices y choice z, Library.Runs next (fun _ _ => True) x choices y → next y choice = some z →
    released y = false → released z = true → ((session z).Idle ↔ inOrder y choice = true))

variable {next inOrder released session} {B : σ → Prop}

theorem releasesInOrder_of_bound {x : σ} (hx : B x) (hheld : released x = false)
    (hnext : ∀ {y z choice}, B y → next y choice = some z → B z)
    (hidle : ∀ {y z choice}, B y → next y choice = some z → released y = false → released z = true →
      ((session z).Idle ↔ inOrder y choice = true))
    (hkept : ∀ {y z choice}, B y → next y choice = some z → released y = true → session z = session y) :
    ReleasesInOrder next inOrder released session x := by
  constructor
  · intro choices y hrun
    have hboth := hrun.invariant (I := fun y => B y ∧ (released y = true → (session y).Idle))
      ⟨hx, fun hr => by cases hheld.symm.trans hr⟩ (fun {y z choice} ⟨hy, hi⟩ horder hs => ⟨hnext hy hs, fun hz => ?_⟩)
    · exact hboth.2
    · cases hr : released y with
      | false => exact (hidle hy hs hr hz).mpr horder
      | true =>
        rw [hkept hy hs hr]
        exact hi hr
  · intro choices y choice z hrun hs
    have hy := hrun.invariant hx (fun hy _ hs => hnext hy hs)
    exact hidle hy hs

end

/-! ## The elector -/

namespace Elector
variable {e e' : Elector} {free : Bool} {choice : ElectorChoice}

/-- One step, beside any other sessions. -/
def step (e : Elector) (choice : Bool × ElectorChoice) : Option Elector := e.next choice.1 choice.2

/-- `Close` finds no lock on a live session, or knows that it leads and its unlock reaches the server. -/
def inOrder (e : Elector) : Bool × ElectorChoice → Bool
  | (_, .finishClose reply) => !e.session.alive || decide (e.session.count e.key = 0) || e.isLeader && reply.took
  | _ => true

/-- The session holds nothing but the elector's key. -/
structure Bound (e : Elector) : Prop where
  dialect : e.dialect = .postgres
  sound : e.session.Sound
  key : ∀ k, k ≠ e.key → e.session.count k = 0
  closed : e.released = true → e.closed = true

/-- The callback's goroutine once the elector leads. -/
def fired (e : Elector) : CallbackStage := if !e.onAcquire || e.acquiring then e.callback else .launched

theorem fireOnAcquire_eq : e.fireOnAcquire = { e with callback := e.fired } := by
  unfold fireOnAcquire fired
  split <;> rfl

/-- What `IsLeader` can do: nothing, become the leader, or fail to, perhaps after the server granted the lock. -/
theorem tryLead_cases (e : Elector) (free : Bool) (reply : Reply) : e.tryLead free reply = e ∨
    (e.closed = false ∧ e.isLeader = false ∧
      ((e.session.answered reply && e.session.granted e.key free) = true ∧ e.tryLead free reply =
        { e with session := e.session.lock e.key, isLeader := true, callback := e.fired } ∨
       (e.session.answered reply && e.session.granted e.key free) = false ∧ e.tryLead free reply =
        { e with
          session := if e.session.reached reply && e.session.granted e.key free then e.session.lock e.key
            else e.session })) := by
  unfold Elector.tryLead
  split
  · exact .inl rfl
  · rename_i hopen
    split
    · exact .inl rfl
    · rename_i hl
      refine .inr ⟨by simpa using hopen, by simpa using hl, ?_⟩
      dsimp only
      split
      · rename_i ha
        refine .inl ⟨ha, ?_⟩
        obtain ⟨hanswered, hgranted⟩ := Bool.and_eq_true_iff.mp ha
        rw [if_pos (by rw [Session.reached_of_answered hanswered, hgranted]; rfl), fireOnAcquire_eq]
        rfl
      · rename_i ha
        refine .inr ⟨by simpa using ha, ?_⟩
        split <;> rfl

theorem tryLead_eq (e : Elector) (free : Bool) (reply : Reply) : e.tryLead free reply = e ∨
    (e.closed = false ∧ ∃ isLeader callback, e.tryLead free reply =
      { e with
        session := if e.session.reached reply && e.session.granted e.key free then e.session.lock e.key else e.session
        isLeader := isLeader
        callback := callback }) := by
  obtain hsame | ⟨hopen, -, ⟨ha, heq⟩ | ⟨-, heq⟩⟩ := tryLead_cases e free reply
  · exact .inl hsame
  · obtain ⟨hanswered, hgranted⟩ := Bool.and_eq_true_iff.mp ha
    refine .inr ⟨hopen, true, e.fired, ?_⟩
    rw [heq, if_pos (by rw [Session.reached_of_answered hanswered, hgranted]; rfl)]
  · exact .inr ⟨hopen, e.isLeader, e.callback, heq⟩

/-- The rest of `Close` at the Postgres elector. -/
theorem finishClose_eq (h : e.dialect = .postgres) (reply : Reply) : e.finishClose reply =
    { e with
      session := if e.isLeader && e.session.reached reply then e.session.unlockAll else e.session
      isLeader := false
      released := true } := by
  unfold Elector.finishClose
  rw [h]
  dsimp only
  split <;> simp_all

/-- What a step does to the session: nothing, unless it tries for the lock, closes or loses the connection. -/
theorem next_cases (h : e.dialect = .postgres) (hnext : e.next free choice = some e') :
    (∃ isLeader closed callback, (e.closed = true → closed = true) ∧
      e' = { e with isLeader := isLeader, closed := closed, callback := callback }) ∨
    (e.closed = false ∧ ∃ reply isLeader callback, e' =
      { e with
        session := if e.session.reached reply && e.session.granted e.key free then e.session.lock e.key else e.session
        isLeader := isLeader
        callback := callback }) ∨
    (e.closed = true ∧ e.released = false ∧ ∃ reply, choice = .finishClose reply ∧ e' =
      { e with
        session := if e.isLeader && e.session.reached reply then e.session.unlockAll else e.session
        isLeader := false
        released := true }) ∨
    (e.released = false ∧ e' = { e with session := e.session.sever }) := by
  unfold Elector.next at hnext
  split at hnext
  · rename_i reply
    cases hnext
    obtain hsame | ⟨hopen, isLeader, callback, heq⟩ := tryLead_eq e free reply
    · rw [hsame]
      exact .inl ⟨e.isLeader, e.closed, e.callback, id, rfl⟩
    · exact .inr (.inl ⟨hopen, reply, isLeader, callback, heq⟩)
  · cases hnext
    unfold Elector.revalidate
    refine .inl ?_
    split
    · exact ⟨e.isLeader, e.closed, e.callback, id, rfl⟩
    · split
      · exact ⟨e.isLeader, e.closed, e.callback, id, rfl⟩
      · exact ⟨false, e.closed, e.callback, id, rfl⟩
  · split at hnext
    · cases hnext
      exact .inl ⟨e.isLeader, e.closed, .running, id, rfl⟩
    · cases hnext
  · split at hnext
    · cases hnext
      exact .inl ⟨e.isLeader, e.closed, .returned, id, rfl⟩
    · cases hnext
  · split at hnext
    · cases hnext
      exact .inl ⟨e.isLeader, e.closed, .idle, id, rfl⟩
    · cases hnext
  · split at hnext
    · cases hnext
    · cases hnext
      exact .inl ⟨e.isLeader, true, e.callback, fun _ => rfl, rfl⟩
  · rename_i reply
    split at hnext
    · rename_i hc
      cases hnext
      obtain ⟨⟨hclosed, hrel⟩, -⟩ : (e.closed = true ∧ e.released = false) ∧ e.callback = .idle := by simpa using hc
      exact .inr (.inr (.inl ⟨hclosed, hrel, reply, rfl, finishClose_eq h reply⟩))
    · cases hnext
  · split at hnext
    · cases hnext
    · rename_i hrel
      cases hnext
      exact .inr (.inr (.inr ⟨by simpa using hrel, rfl⟩))

theorem Bound.next (h : e.Bound) (hnext : e.next free choice = some e') : e'.Bound := by
  obtain ⟨_, _, _, hc, rfl⟩ | ⟨hopen, reply, _, _, rfl⟩ | ⟨hclosed, -, reply, -, rfl⟩ | ⟨-, rfl⟩ :=
    next_cases h.dialect hnext
  · exact ⟨h.dialect, h.sound, h.key, fun hr => hc (h.closed hr)⟩
  · refine ⟨h.dialect, ?_, fun k hk => ?_, h.closed⟩
    · dsimp only
      split
      · rename_i hr
        exact Session.sound_lock (Session.reached_alive (Bool.and_eq_true_iff.mp hr).1)
      · exact h.sound
    · dsimp only
      split
      · rw [Session.count_lock, if_neg hk]
        exact h.key k hk
      · exact h.key k hk
  · refine ⟨h.dialect, ?_, fun k hk => ?_, fun _ => hclosed⟩
    · dsimp only
      split
      · exact fun _ _ => rfl
      · exact h.sound
    · dsimp only
      split
      · rfl
      · exact h.key k hk
  · exact ⟨h.dialect, Session.sound_sever e.session, fun _ _ => rfl, h.closed⟩

/-- The step that gives the connection back leaves the session idle if and only if it is in order. -/
theorem Bound.idle_iff (h : e.Bound) (hnext : e.next free choice = some e') (hheld : e.released = false)
    (hr : e'.released = true) : e'.session.Idle ↔ e.inOrder (free, choice) = true := by
  have hidle : e.session.Idle ↔ e.session.alive = false ∨ e.session.count e.key = 0 := by
    constructor
    · intro hi
      exact .inr (hi e.key)
    · rintro (hdead | hzero) k
      · exact h.sound hdead k
      · by_cases hk : k = e.key
        · rw [hk]
          exact hzero
        · exact h.key k hk
  obtain ⟨_, _, _, -, rfl⟩ | ⟨-, _, _, _, rfl⟩ | ⟨-, -, reply, rfl, rfl⟩ | ⟨-, rfl⟩ := next_cases h.dialect hnext
  · cases hheld.symm.trans hr
  · cases hheld.symm.trans hr
  · have horder : e.inOrder (free, .finishClose reply) = true ↔
        e.session.Idle ∨ (e.isLeader = true ∧ reply.took = true) := by
      rw [hidle]
      simp [inOrder]
    rw [horder]
    dsimp only
    split
    · rename_i hu
      obtain ⟨hl, hr⟩ := Bool.and_eq_true_iff.mp hu
      exact ⟨fun _ => .inr ⟨hl, Session.took_of_reached hr⟩, fun _ _ => rfl⟩
    · rename_i hu
      refine ⟨fun hi => .inl hi, ?_⟩
      rintro (hi | ⟨hl, ht⟩)
      · exact hi
      · refine h.sound ?_
        by_contra ha
        exact hu (by simp [hl, ht, Session.reached, (by simpa using ha : e.session.alive = true)])
  · cases hheld.symm.trans hr

/-- Once the connection is back, nothing touches the session. -/
theorem Bound.next_released (h : e.Bound) (hnext : e.next free choice = some e') (hr : e.released = true) :
    e'.session = e.session := by
  obtain ⟨_, _, _, -, rfl⟩ | ⟨hopen, _, _, _, rfl⟩ | ⟨-, hno, _, _, rfl⟩ | ⟨hno, rfl⟩ := next_cases h.dialect hnext
  · rfl
  · cases hopen.symm.trans (h.closed hr)
  · cases hno.symm.trans hr
  · cases hno.symm.trans hr

theorem bound_new (key : String) (onAcquire : Bool) : Bound { key := key, onAcquire := onAcquire } :=
  ⟨rfl, fun _ _ => rfl, fun _ _ => rfl, fun h => by cases h⟩

end Elector

/-! ## The owner of instances -/

namespace Ownership
variable {o o' : Ownership} {choice : OwnershipChoice} {k : String}

/-- `Close` finds no lock but those it knows of, each taken once, and unlocks it. -/
def inOrder (o : Ownership) : OwnershipChoice → Bool
  | .close reply => o.asked.all (fun id =>
      decide (o.session.count id ≤ if o.held.contains id && o.session.reached (reply id) then 1 else 0))
  | _ => true

/-- The session holds only locks it was asked for. -/
structure Bound (o : Ownership) : Prop where
  sound : o.session.Sound
  asked : ∀ id, id ∉ o.asked → o.session.count id = 0
  held : ∀ id ∈ o.held, id ∈ o.asked
  nodup : o.held.Nodup

theorem unlocked_alive (s : Session String) (id : String) (reply : Reply) : (unlocked s id reply).alive = s.alive := by
  unfold unlocked
  split <;> rfl

theorem count_unlocked (s : Session String) (id : String) (reply : Reply) :
    (unlocked s id reply).count k = s.count k - if k = id ∧ s.reached reply = true then 1 else 0 := by
  unfold unlocked
  by_cases hr : s.reached reply = true
  · rw [if_pos hr, Session.count_unlock]
    by_cases hk : k = id
    · simp [hk, hr]
    · simp [hk]
  · simp [hr]

theorem sound_unlocked {s : Session String} (h : s.Sound) (id : String) (reply : Reply) : (unlocked s id reply).Sound := by
  unfold unlocked
  split
  · exact h.unlock id
  · exact h

/-- `Close` takes one count off each lock it holds and reaches. -/
theorem count_unlocked_all (reply : String → Reply) {held : List String} (hn : held.Nodup) (s : Session String) :
    (held.foldl (fun s id => unlocked s id (reply id)) s).count k =
      s.count k - if k ∈ held ∧ s.reached (reply k) = true then 1 else 0 := by
  induction held generalizing s with
  | nil => simp
  | cons id held ih =>
    obtain ⟨hid, hn⟩ := List.nodup_cons.mp hn
    have hreached : (unlocked s id (reply id)).reached (reply k) = s.reached (reply k) := by
      unfold Session.reached
      rw [unlocked_alive]
    rw [List.foldl_cons, ih hn, count_unlocked, hreached]
    by_cases hk : k = id
    · subst hk
      simp [hid]
    · simp [hk]

theorem sound_unlocked_all (reply : String → Reply) (held : List String) {s : Session String} (h : s.Sound) :
    (held.foldl (fun s id => unlocked s id (reply id)) s).Sound := by
  induction held generalizing s with
  | nil => exact h
  | cons id held ih => exact ih (sound_unlocked h id (reply id))

theorem Bound.acquire (h : o.Bound) (id : String) (free : Bool) (reply : Reply) : (o.acquire id free reply).Bound := by
  unfold Ownership.acquire
  split
  · exact h
  · rename_i hnew
    have hnew : id ∉ o.held := by simpa using hnew
    refine ⟨?_, fun k hk => ?_, fun k hk => ?_, ?_⟩
    · dsimp only
      split
      · rename_i hr
        exact Session.sound_lock (Session.reached_alive (Bool.and_eq_true_iff.mp hr).1)
      · exact h.sound
    · obtain ⟨hne, hk⟩ := not_or.mp (mt List.mem_cons.mpr hk)
      dsimp only
      split
      · rw [Session.count_lock, if_neg hne]
        exact h.asked k hk
      · exact h.asked k hk
    · dsimp only at hk
      split at hk
      · rcases List.mem_cons.mp hk with rfl | hk
        · exact List.mem_cons_self ..
        · exact List.mem_cons_of_mem _ (h.held k hk)
      · exact List.mem_cons_of_mem _ (h.held k hk)
    · dsimp only
      split
      · exact List.nodup_cons.mpr ⟨hnew, h.nodup⟩
      · exact h.nodup

theorem Bound.release (h : o.Bound) (id : String) (reply : Reply) : (o.release id reply).Bound := by
  unfold Ownership.release
  split
  · exact h
  · refine ⟨sound_unlocked h.sound id reply, fun k hk => ?_, fun k hk => ?_, ?_⟩
    · rw [count_unlocked, h.asked k hk, Nat.zero_sub]
    · dsimp only at hk
      split at hk
      · exact h.held k (List.mem_filter.mp hk).1
      · exact h.held k hk
    · dsimp only
      split
      · exact h.nodup.filter _
      · exact h.nodup

theorem Bound.close (h : o.Bound) (reply : String → Reply) : (o.close reply).Bound := by
  refine ⟨sound_unlocked_all reply o.held h.sound, fun k hk => ?_, fun _ hk => (by cases hk), List.nodup_nil⟩
  change (o.held.foldl (fun s id => unlocked s id (reply id)) o.session).count k = 0
  rw [count_unlocked_all reply h.nodup, h.asked k hk, Nat.zero_sub]

/-- A step is one of these, and is made while the component is open. -/
theorem next_open (hnext : o.next choice = some o') : o.closed = false := by
  cases hc : o.closed with
  | false => rfl
  | true =>
    unfold Ownership.next at hnext
    rw [hc] at hnext
    split at hnext <;> cases hnext

theorem Bound.next (h : o.Bound) (hnext : o.next choice = some o') : o'.Bound := by
  have hopen := next_open hnext
  unfold Ownership.next at hnext
  rw [hopen] at hnext
  split at hnext <;> cases hnext
  · exact h.acquire _ _ _
  · exact h.release _ _
  · exact h.close _
  · exact ⟨Session.sound_sever o.session, fun _ _ => rfl, h.held, h.nodup⟩

theorem acquire_closed (id : String) (free : Bool) (reply : Reply) : (o.acquire id free reply).closed = o.closed := by
  unfold Ownership.acquire
  split <;> rfl

theorem release_closed (id : String) (reply : Reply) : (o.release id reply).closed = o.closed := by
  unfold Ownership.release
  split <;> rfl

/-- `Close` leaves the session idle if and only if it is in order. -/
theorem Bound.idle_iff (h : o.Bound) (hnext : o.next choice = some o') (hclosed : o'.closed = true) :
    o'.session.Idle ↔ o.inOrder choice = true := by
  have hopen := next_open hnext
  unfold Ownership.next at hnext
  rw [hopen] at hnext
  split at hnext <;> cases hnext
  · rw [acquire_closed, hopen] at hclosed
    cases hclosed
  · rw [release_closed, hopen] at hclosed
    cases hclosed
  · rename_i reply
    have hcount : ∀ k, (o.close reply).session.count k = 0 ↔
        o.session.count k ≤ if o.held.contains k && o.session.reached (reply k) then 1 else 0 := by
      intro k
      change (o.held.foldl (fun s id => unlocked s id (reply id)) o.session).count k = 0 ↔ _
      rw [count_unlocked_all reply h.nodup, Nat.sub_eq_zero_iff_le]
      simp
    simp only [inOrder, List.all_eq_true, decide_eq_true_eq]
    constructor
    · intro hi k _
      exact (hcount k).mp (hi k)
    · intro hall k
      refine (hcount k).mpr ?_
      by_cases hk : k ∈ o.asked
      · exact hall k hk
      · rw [h.asked k hk]
        exact Nat.zero_le _
  · cases hclosed

theorem bound_new : Bound {} :=
  ⟨fun _ _ => rfl, fun _ _ => rfl, fun _ h => (by cases h), List.nodup_nil⟩

end Ownership

/-! ## The scheduler's lock -/

namespace SchedulerLock
variable {l l' : SchedulerLock} {choice : SchedulerLockChoice}

/-- A try that the server granted is answered, and the unlock reaches the server. -/
def inOrder (l : SchedulerLock) : SchedulerLockChoice → Bool
  | .lock free reply => reply == .works || !(l.session.reached reply && free)
  | .unlock reply => !l.session.alive || reply.took
  | .sever => true

/-- The session holds the lock once, from `Lock` to `Unlock`. -/
structure Bound (l : SchedulerLock) : Prop where
  sound : l.session.Sound
  key : ∀ k, k ≠ l.key → l.session.count k = 0
  unlocked : l.released = false → l.locked = false → l.session.count l.key = 0
  locked : l.released = false → l.locked = true → l.session.alive = true → l.session.count l.key = 1

theorem Bound.idle (h : l.Bound) (hr : l.released = false) (hl : l.locked = false) : l.session.Idle := by
  intro k
  by_cases hk : k = l.key
  · rw [hk]
    exact h.unlocked hr hl
  · exact h.key k hk

/-- The session after `Lock`. -/
def tried (l : SchedulerLock) (free : Bool) (reply : Reply) : Session String :=
  if l.session.reached reply && free then l.session.lock l.key else l.session

theorem Bound.lock_eq (h : l.Bound) (hr : l.released = false) (hl : l.locked = false) (free : Bool) (reply : Reply) :
    l.lock free reply =
      if l.session.answered reply && free then { l with session := l.tried free reply, locked := true }
      else { l with session := l.tried free reply, released := true } := by
  have hgranted : l.session.granted l.key free = free := by
    unfold Session.granted
    rw [h.unlocked hr hl]
    simp
  unfold SchedulerLock.lock tried
  rw [hgranted]

theorem Bound.next (h : l.Bound) (hnext : l.next choice = some l') : l'.Bound := by
  unfold SchedulerLock.next at hnext
  split at hnext
  · rename_i free reply
    split at hnext
    · cases hnext
    · rename_i hfree
      obtain ⟨hl, hr⟩ : l.locked = false ∧ l.released = false := by simpa using hfree
      cases hnext
      have hsound : (l.tried free reply).Sound := by
        unfold tried
        split
        · rename_i ht
          exact Session.sound_lock (Session.reached_alive (Bool.and_eq_true_iff.mp ht).1)
        · exact h.sound
      have hkey : ∀ k, k ≠ l.key → (l.tried free reply).count k = 0 := by
        intro k hk
        unfold tried
        split
        · rw [Session.count_lock, if_neg hk]
          exact h.key k hk
        · exact h.key k hk
      rw [h.lock_eq hr hl]
      split
      · rename_i ha
        obtain ⟨ha, hf⟩ := Bool.and_eq_true_iff.mp ha
        refine ⟨hsound, hkey, fun _ hl => (by cases hl), fun _ _ _ => ?_⟩
        change (l.tried free reply).count l.key = 1
        unfold tried
        rw [if_pos (by rw [Session.reached_of_answered ha, hf]; rfl), Session.count_lock, if_pos rfl, h.unlocked hr hl]
      · exact ⟨hsound, hkey, fun hr => (by cases hr), fun hr => by cases hr⟩
  · split at hnext
    · cases hnext
    · cases hnext
      refine ⟨?_, fun k hk => ?_, fun hr => (by cases hr), fun hr => by cases hr⟩
      · unfold SchedulerLock.unlock
        dsimp only
        split
        · exact h.sound.unlock l.key
        · exact h.sound
      · unfold SchedulerLock.unlock at hk ⊢
        dsimp only at hk ⊢
        split
        · rw [Session.count_unlock, if_neg hk]
          exact h.key k hk
        · exact h.key k hk
  · split at hnext
    · cases hnext
    · cases hnext
      exact ⟨Session.sound_sever l.session, fun _ _ => rfl, fun _ _ => rfl, fun _ _ ha => by cases ha⟩

/-- The step that gives the connection back leaves the session idle if and only if it is in order. -/
theorem Bound.idle_iff (h : l.Bound) (hnext : l.next choice = some l') (hreleased : l'.released = true) :
    l'.session.Idle ↔ l.inOrder choice = true := by
  unfold SchedulerLock.next at hnext
  split at hnext
  · rename_i free reply
    split at hnext
    · cases hnext
    · rename_i hfree
      obtain ⟨hl, hr⟩ : l.locked = false ∧ l.released = false := by simpa using hfree
      cases hnext
      rw [h.lock_eq hr hl] at hreleased ⊢
      split at hreleased
      · cases hr.symm.trans hreleased
      · rename_i hno
        rw [if_neg hno]
        change (l.tried free reply).Idle ↔ _
        have htried : (l.tried free reply).Idle ↔ (l.session.reached reply && free) = false := by
          unfold tried
          split
          · rename_i ht
            rw [ht]
            refine iff_of_false (fun hi => ?_) (by decide)
            have := hi l.key
            rw [Session.count_lock, if_pos rfl] at this
            cases this
          · rename_i ht
            exact iff_of_true (h.idle hr hl) (by simpa using ht)
        rw [htried]
        cases reply with
        | works => simpa [inOrder, Session.reached, Session.answered, Reply.took] using hno
        | fails took =>
          have hfails : (Reply.fails took == .works) = false := rfl
          simp only [inOrder, hfails, Bool.false_or, Bool.not_eq_true']
  · rename_i reply
    split at hnext
    · cases hnext
    · rename_i hfree
      obtain ⟨hl, hr⟩ : l.locked = true ∧ l.released = false := by simpa using hfree
      cases hnext
      change (if l.session.reached reply then l.session.unlock l.key else l.session).Idle ↔ _
      cases ha : l.session.alive with
      | false =>
        have hdead : l.session.reached reply = false := by simp [Session.reached, ha]
        rw [hdead]
        exact iff_of_true (h.sound ha) (by simp [inOrder, ha])
      | true =>
        have hone := h.locked hr hl ha
        have hreached : l.session.reached reply = reply.took := by simp [Session.reached, ha]
        have horder : l.inOrder (.unlock reply) = reply.took := by simp [inOrder, ha]
        rw [hreached, horder]
        split
        · rename_i ht
          refine iff_of_true (fun k => ?_) ht
          rw [Session.count_unlock, hone]
          split
          · rfl
          · rename_i hk
            exact h.key k hk
        · rename_i ht
          refine iff_of_false (fun hi => ?_) ht
          have := hi l.key
          omega
  · split at hnext
    · cases hnext
    · rename_i hr
      cases hnext
      exact absurd hreleased hr

theorem next_released (hnext : l.next choice = some l') (hr : l.released = true) : l'.session = l.session := by
  unfold SchedulerLock.next at hnext
  rw [hr] at hnext
  split at hnext <;> simp at hnext

theorem bound_new (key : String) : Bound { key := key } :=
  ⟨fun _ _ => rfl, fun _ _ => rfl, fun _ _ => rfl, fun _ h => by cases h⟩

end SchedulerLock

/-- **No lock outlives its holder in a run whose releases are in order**, and every release that is not leaves one. -/
theorem locks_released (key : String) (onAcquire : Bool) :
    ReleasesInOrder Elector.step Elector.inOrder Elector.released Elector.session { key := key, onAcquire := onAcquire } ∧
    ReleasesInOrder Ownership.next Ownership.inOrder Ownership.closed Ownership.session {} ∧
    ReleasesInOrder SchedulerLock.next SchedulerLock.inOrder SchedulerLock.released SchedulerLock.session
      { key := key } := by
  refine ⟨?_, ?_, ?_⟩
  · exact releasesInOrder_of_bound (B := Elector.Bound) (Elector.bound_new key onAcquire) rfl (fun h => h.next)
      (fun h => h.idle_iff) (fun h => h.next_released)
  · refine releasesInOrder_of_bound (B := Ownership.Bound) Ownership.bound_new rfl (fun h => h.next)
      (fun h hn _ => h.idle_iff hn) (fun _ hn hc => ?_)
    cases (Ownership.next_open hn).symm.trans hc
  · exact releasesInOrder_of_bound (B := SchedulerLock.Bound) (SchedulerLock.bound_new key) rfl (fun h => h.next)
      (fun h hn _ => h.idle_iff hn) (fun _ => SchedulerLock.next_released)

theorem not_idle {session : Session String} {key : String} {b : Bool} (h : (b && session.count key == 1) = true) :
    b = true ∧ ¬ session.Idle := by
  obtain ⟨hb, hone⟩ := Bool.and_eq_true_iff.mp h
  refine ⟨hb, fun hi => ?_⟩
  rw [hi key] at hone
  cases hone

/-- The elector loses a heartbeat while its session lives on, steps down and is closed: its lock stays. So does a lock
whose try fails after the server granted it, at the owner and at the scheduler. -/
theorem lock_left_on_session :
    (∃ choices e, Library.Runs Elector.step (fun _ _ => True) { key := "leader" } choices e ∧
      e.released = true ∧ ¬ e.session.Idle) ∧
    (∃ choices o, Library.Runs Ownership.next (fun _ _ => True) {} choices o ∧ o.closed = true ∧ ¬ o.session.Idle) ∧
    (∃ choices l, Library.Runs SchedulerLock.next (fun _ _ => True) { key := "timer" } choices l ∧
      l.released = true ∧ ¬ l.session.Idle) := by
  refine ⟨?_, ?_, ?_⟩
  · have hplay : Library.plays Elector.step (fun _ _ => True) { key := "leader" }
        [(true, .isLeader .works), (true, .heartbeat (.fails false)), (true, .close), (true, .finishClose .works)]
        (fun e => e.released && e.session.count "leader" == 1) = true := by decide
    obtain ⟨e, hrun, hQ⟩ := Library.runs_of_plays hplay
    exact ⟨_, e, hrun, not_idle hQ⟩
  · have hplay : Library.plays Ownership.next (fun _ _ => True) {}
        [.acquire "order" true (.fails true), .close (fun _ => .works)]
        (fun o => o.closed && o.session.count "order" == 1) = true := by decide
    obtain ⟨o, hrun, hQ⟩ := Library.runs_of_plays hplay
    exact ⟨_, o, hrun, not_idle hQ⟩
  · have hplay : Library.plays SchedulerLock.next (fun _ _ => True) { key := "timer" } [.lock true (.fails true)]
        (fun l => l.released && l.session.count "timer" == 1) = true := by decide
    obtain ⟨l, hrun, hQ⟩ := Library.runs_of_plays hplay
    exact ⟨_, l, hrun, not_idle hQ⟩

end Wrkflw
