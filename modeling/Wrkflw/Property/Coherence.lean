import Wrkflw.Store.Caching

/-!
# The caching store serves what is committed

The lock of an instance orders the look-ups and the write-throughs of `Load` and `Commit`. Four things go past it: `Create`
writes its row before it asks for the lock, a `Commit` whose ownership answer is not a grant or whose `Set` fails leaves the
entry it has made old, `Release` gives the instance up without the lock, and a transaction puts into the cache what it has not
committed, which a `Delete` that fails leaves there.

* `Caching.orderly` : a step that does none of these at a bad moment;
* `Caching.Inv` : what then holds in every state reached;
* `orderly_loads_coherent` : every `Load` outside a transaction returns what was committed between its call and its return.
-/

namespace Wrkflw

open Library

variable {e : InstanceEntry} {j : Nat} {other : CacheCall} {v : CacheTx} {state : InstanceState} {phase : CacheTxPhase}

/-! ## Orderly steps -/

/-- A `Create` whose row is in and that has not returned. -/
def CacheCall.creating (call : CacheCall) : Bool :=
  match call.op with
  | .create _ => call.underWay
  | _ => false

def CacheCall.isRelease (call : CacheCall) : Bool :=
  match call.op with
  | .release => true
  | _ => false

namespace Caching
variable (s : Caching)

/-- No transaction of the process but the call's own has the instance, and a call in a transaction has it to itself. -/
def apart (call : CacheCall) : Bool :=
  (List.range s.txs.length).all (fun t => match s.txs[t]? with
    | none => true
    | some u => u.proc != call.proc || !u.uses || call.tx == some t) &&
  (call.tx.isNone || s.calls.all (fun other => other.proc != call.proc || !other.underWay || other.tx == call.tx))

/-- A `Commit` is not made during a `Create`; after it, the ownership is granted and the `Set` does not fail, or nothing is
cached; and a `Release` gives up an instance with nothing cached, no call under way and no transaction that has used it. -/
def careful (call : CacheCall) (answer : CacheAnswer) : Bool :=
  match call.op, call.stage with
  | .commit _ _, .locked => s.calls.all (fun other => !other.creating)
  | .commit _ _, .committed _ => answer == .granted || (s.cache call.proc).isNone
  | .commit _ _, .writes _ => answer != .failed || (s.cache call.proc).isNone
  | .release, .evicted =>
    (s.cache call.proc).isNone &&
      s.calls.all (fun other => other.proc != call.proc || !other.underWay || other.isRelease) &&
      s.txs.all (fun u => u.proc != call.proc || !u.uses)
  | _, _ => true

def orderly : CacheChoice → Bool
  | .goOn i answer =>
    match s.calls[i]? with
    | none => true
    | some call => s.apart call && s.careful call answer
  | .evict t answer =>
    -- what a failed transaction has put is deleted
    match s.txs[t]? with
    | none => true
    | some u => answer != .failed || !u.touched || (s.cache u.proc).isNone
  | _ => true

end Caching

/-! ## What a call relies on -/

namespace CacheCall
variable (call : CacheCall)

/-- The call was granted the instance and relies on it. -/
def owning : Bool :=
  match call.op, call.stage with
  | .create _, .owns _ => true
  | .create _, .writes _ => true
  | .load, .waits => true
  | .load, .looks => true
  | .load, .missed => true
  | .load, .holds _ => true
  | .commit _ _, .committed _ => true
  | .commit _ _, .writes _ => true
  | _, _ => false

/-- The call has the lock. -/
def locking : Bool :=
  match call.op, call.stage with
  | .create _, .writes _ => true
  | .load, .looks => true
  | .load, .missed => true
  | .load, .holds _ => true
  | .commit _ _, .locked => true
  | .commit _ _, .committed _ => true
  | .commit _ _, .conflicted => true
  | .commit _ _, .writes _ => true
  | _, _ => false

/-- The call at another stage. -/
abbrev withStage (stage : CacheStage) : CacheCall := { call with stage := stage }

/-- The entry the call takes for that of the row. -/
def sees : Option InstanceEntry :=
  match call.op, call.stage with
  | .create state, .created tok => some ⟨state, tok⟩
  | .create state, .owns tok => some ⟨state, tok⟩
  | .create state, .writes tok => some ⟨state, tok⟩
  | .load, .holds e => some e
  | .commit _ state, .committed tok => some ⟨state, tok⟩
  | .commit _ state, .writes tok => some ⟨state, tok⟩
  | _, _ => none

/-- A `Commit` between the backing store's and its own write-through. -/
def writing : Bool :=
  match call.op, call.stage with
  | .commit _ _, .committed _ => true
  | .commit _ _, .writes _ => true
  | _, _ => false

variable {call : CacheCall}

theorem underWay_of_owning (h : call.owning = true) : call.underWay = true := by
  unfold owning at h
  unfold underWay
  split at h <;> simp_all [CacheStage.isReturned]

theorem underWay_of_sees (h : call.sees = some e) : call.underWay = true := by
  unfold sees at h
  unfold underWay
  split at h <;> simp_all [CacheStage.isReturned]

theorem underWay_of_creating (h : call.creating = true) : call.underWay = true := by
  unfold creating at h
  split at h
  · exact h
  · cases h

theorem owning_of_writing (h : call.writing = true) : call.owning = true := by
  unfold writing at h
  unfold owning
  split at h <;> simp_all

theorem locking_of_writing (h : call.writing = true) : call.locking = true := by
  unfold writing at h
  unfold locking
  split at h <;> simp_all

theorem sees_of_writing (h : call.writing = true) : ∃ e, call.sees = some e := by
  unfold writing at h
  unfold sees
  split at h <;> simp_all

/-- What is seen is seen by a `Create`, or under the lock by the owner. -/
theorem creating_or_locking (h : call.sees = some e) :
    call.creating = true ∨ (call.owning = true ∧ call.locking = true) := by
  have hway := underWay_of_sees h
  unfold sees at h
  unfold creating owning locking
  split at h <;> simp_all

theorem not_returned_of_underWay (h : call.underWay = true) : call.stage.isReturned = false := by
  unfold underWay at h
  split at h
  · cases h
  · simpa using h

end CacheCall

/-! ## The invariant -/

namespace Caching
variable (s : Caching)

/-- The row, or what the transaction has written. -/
def row : Option Nat → Option InstanceEntry
  | none => s.backing
  | some t => (s.txs[t]?).bind CacheTx.written

/-- A transaction is changed. -/
abbrev setTx (t : Nat) (v : CacheTx) : Caching := { s with txs := s.txs.set t v }

/-- A transaction that is not over has put the instance into the cache of the process. -/
def TouchedBy (p : Nat) : Prop :=
  ∃ (t : Nat) (u : CacheTx), s.txs[t]? = some u ∧ u.proc = p ∧ u.phase ≠ .over ∧ u.touched = true

/-- The cache of the process is about to be brought up to date. -/
def Pending (p : Nat) (x : Option Nat) : Prop :=
  ∃ (i : Nat) (call : CacheCall), s.calls[i]? = some call ∧ call.proc = p ∧ call.tx = x ∧ call.writing = true

structure CallOk (i : Nat) (call : CacheCall) : Prop where
  since_le : call.since ≤ s.past.length
  tx : ∀ t, call.tx = some t → ∃ u : CacheTx, s.txs[t]? = some u ∧ u.proc = call.proc ∧
    (call.stage.isReturned = false → u.phase = .running)
  owning : call.owning = true → s.owner = some call.proc
  locking : call.locking = true → s.lock call.proc = some i
  sees : ∀ e, call.sees = some e → s.view call.tx = some e
  created : call.creating = true → (s.row call.tx).isSome = true
  returned : ∀ e moment, call.op = .load → call.stage = .returned (some e) moment →
    moment ≤ s.past.length ∧ (call.tx = none → some e ∈ s.moments call.since moment)

structure Inv : Prop where
  cached : ∀ p e, s.cache p = some e → s.TouchedBy p ∨ (s.owner = some p ∧ (¬ s.Pending p none → s.backing = some e))
  held : ∀ (t : Nat) u, s.txs[t]? = some u → u.phase = .running → u.written.isSome = true →
    s.owner = some u.proc ∨ s.backing = none
  fresh : ∀ (t : Nat) u, s.txs[t]? = some u → u.phase = .running → u.touched = true → ¬ s.Pending u.proc (some t) →
    ∀ e, s.cache u.proc = some e → s.view (some t) = some e ∧ s.owner = some u.proc
  unseen : ∀ (t : Nat) u, s.txs[t]? = some u → u.phase = .running → u.written.isSome = true → u.touched = false →
    ¬ s.Pending u.proc (some t) → s.cache u.proc = none
  apart : ∀ (t : Nat) u (t' : Nat) u', s.txs[t]? = some u → s.txs[t']? = some u' → u.proc = u'.proc →
    u.uses = true → u'.uses = true → t = t'
  row : ∀ (t : Nat) u (t' : Nat) u', s.txs[t]? = some u → s.txs[t']? = some u' → u.phase = .running → u'.phase = .running →
    u.written.isSome = true → u'.written.isSome = true → t = t'
  alone : ∀ (t : Nat) u (i : Nat) call, s.txs[t]? = some u → s.calls[i]? = some call → u.uses = true → call.proc = u.proc →
    call.underWay = true → call.tx = some t
  uncreated : ∀ (t : Nat) u (i : Nat) call, s.txs[t]? = some u → s.calls[i]? = some call →
    u.phase = .running → u.written.isSome = true →
    call.creating = true → call.tx = some t
  calls : ∀ (i : Nat) call, s.calls[i]? = some call → s.CallOk i call

variable {s : Caching} {s' : Caching} {i t : Nat} {call : CacheCall} {u : CacheTx}

theorem view_some (ht : s.txs[t]? = some u) : s.view (some t) = u.written.or s.backing := by
  unfold view
  dsimp only
  rw [ht]

theorem row_some (ht : s.txs[t]? = some u) : s.row (some t) = u.written := by
  unfold row
  dsimp only
  rw [ht]
  rfl

theorem uses_of_written (hphase : u.phase = .running) (hw : u.written.isSome = true) : u.uses = true := by
  unfold CacheTx.uses
  rw [hphase, hw]
  rfl

theorem uses_of_touched (hphase : u.phase ≠ .over) (ht : u.touched = true) : u.uses = true := by
  unfold CacheTx.uses
  rw [ht, Bool.or_true, Bool.and_true]
  simpa using hphase

theorem rowFree_iff {x : Option Nat} : s.rowFree x = true ↔
    ∀ (t : Nat) u, s.txs[t]? = some u → u.phase = .running → u.written.isSome = true → x = some t := by
  unfold rowFree
  rw [List.all_eq_true]
  constructor
  · intro h t u ht hphase hw
    obtain ⟨hlt, -⟩ := List.getElem?_eq_some_iff.mp ht
    have hfree := h t (List.mem_range.mpr hlt)
    rw [ht] at hfree
    cases hwr : u.written with
    | none =>
      rw [hwr] at hw
      cases hw
    | some e => simpa [hphase, hwr] using hfree
  · intro h t hlt
    cases ht : s.txs[t]? with
    | none => simp
    | some u =>
      by_cases hphase : u.phase = .running
      · cases hwr : u.written with
        | none => simp [hwr]
        | some e =>
          rw [h t u ht hphase (by rw [hwr]; rfl)]
          simp
      · simp [hphase]

/-- What `apart` says. -/
theorem apart_tx (h : s.apart call = true) (ht : s.txs[t]? = some u) (hproc : u.proc = call.proc) (huses : u.uses = true) :
    call.tx = some t := by
  unfold apart at h
  obtain ⟨htx, -⟩ := Bool.and_eq_true_iff.mp h
  obtain ⟨hlt, -⟩ := List.getElem?_eq_some_iff.mp ht
  have hone := List.all_eq_true.mp htx t (List.mem_range.mpr hlt)
  rw [ht] at hone
  simpa [hproc, huses] using hone

theorem apart_only (h : s.apart call = true) (hx : call.tx = some t) {t' : Nat} {u' : CacheTx} (ht' : s.txs[t']? = some u')
    (huses : u'.uses = true) (hproc : u'.proc = call.proc) : t' = t := by
  have htx := apart_tx h ht' hproc huses
  rw [hx] at htx
  exact (Option.some.inj htx).symm

theorem apart_call (h : s.apart call = true) (hx : call.tx = some t)
    (hj : s.calls[j]? = some other)
    (hproc : other.proc = call.proc) (hway : other.underWay = true) : other.tx = some t := by
  unfold apart at h
  obtain ⟨-, hcalls⟩ := Bool.and_eq_true_iff.mp h
  rw [hx, Option.isNone_some, Bool.false_or] at hcalls
  have hone := List.all_eq_true.mp hcalls other (List.mem_of_getElem? hj)
  simpa [hproc, hway] using hone

/-! ## Frames -/

theorem getElem?_set_cases {α : Type} {l : List α} {k : Nat} {a b : α} (h : (l.set k a)[j]? = some b) :
    (j = k ∧ b = a) ∨ (j ≠ k ∧ l[j]? = some b) := by
  by_cases hjk : j = k
  · subst hjk
    obtain ⟨hlt, heq⟩ := List.getElem?_eq_some_iff.mp h
    rw [List.getElem_set_self] at heq
    exact Or.inl ⟨rfl, heq.symm⟩
  · rw [List.getElem?_set_ne (Ne.symm hjk)] at h
    exact Or.inr ⟨hjk, h⟩

/-- Both have the same rows. -/
structure SameRows (s s' : Caching) : Prop where
  past : s'.past = s.past
  backing : s'.backing = s.backing
  txs : s'.txs = s.txs

theorem SameRows.view (h : SameRows s s') (x : Option Nat) : s'.view x = s.view x := by
  unfold Caching.view
  rw [h.backing, h.txs]

theorem SameRows.row (h : SameRows s s') (x : Option Nat) : s'.row x = s.row x := by
  unfold Caching.row
  rw [h.backing, h.txs]

/-- The history has grown, and what the call relies on is as it was. -/
theorem CallOk.frame (h : s.CallOk i call) (hpast : ∃ later, s'.past ++ [s'.backing] = (s.past ++ [s.backing]) ++ later)
    (htx : ∀ (t : Nat) u, call.tx = some t → s.txs[t]? = some u →
      ∃ u' : CacheTx, s'.txs[t]? = some u' ∧ u'.proc = u.proc ∧
        (call.stage.isReturned = false → u.phase = .running → u'.phase = .running))
    (howner : call.owning = true → s.owner = some call.proc → s'.owner = some call.proc)
    (hlock : call.locking = true → s.lock call.proc = some i → s'.lock call.proc = some i)
    (hsees : ∀ e, call.sees = some e → s.view call.tx = some e → s'.view call.tx = some e)
    (hcreated : call.creating = true → (s.row call.tx).isSome = true → (s'.row call.tx).isSome = true) :
    s'.CallOk i call := by
  obtain ⟨later, hlater⟩ := hpast
  have hlen : s.past.length ≤ s'.past.length := by
    have heq := congrArg List.length hlater
    simp only [List.length_append, List.length_singleton] at heq
    omega
  refine ⟨h.since_le.trans hlen, ?_, fun ho => howner ho (h.owning ho), fun hl => hlock hl (h.locking hl),
    fun e he => hsees e he (h.sees e he), fun hc => hcreated hc (h.created hc), ?_⟩
  · intro t hx
    obtain ⟨u, hu, hproc, hphase⟩ := h.tx t hx
    obtain ⟨u', hu', hproc', hphase'⟩ := htx t u hx hu
    exact ⟨u', hu', hproc'.trans hproc, fun hr => hphase' hr (hphase hr)⟩
  · intro e moment hop hstage
    obtain ⟨hle, hmem⟩ := h.returned e moment hop hstage
    refine ⟨hle.trans hlen, fun hx => ?_⟩
    have hsame : s'.moments call.since moment = s.moments call.since moment := by
      unfold moments
      rw [hlater, List.take_append_of_le_length]
      simp only [List.length_append, List.length_singleton]
      omega
    rw [hsame]
    exact hmem hx

theorem CallOk.frame_rows (h : s.CallOk i call) (hrows : SameRows s s')
    (howner : call.owning = true → s.owner = some call.proc → s'.owner = some call.proc)
    (hlock : call.locking = true → s.lock call.proc = some i → s'.lock call.proc = some i) : s'.CallOk i call := by
  refine h.frame ⟨[], by rw [hrows.past, hrows.backing, List.append_nil]⟩ ?_ howner hlock ?_ ?_
  · intro t u _ hu
    exact ⟨u, by rw [hrows.txs]; exact hu, rfl, fun _ hphase => hphase⟩
  · intro e _ he
    rw [hrows.view]
    exact he
  · intro _ hc
    rw [hrows.row]
    exact hc

/-! ## What the parts of a step keep -/

/-- An entry is dropped. -/
theorem Inv.drop (h : s.Inv) (p : Nat) : (s.drop p).Inv := by
  have hdrop : ∀ q e, (s.drop p).cache q = some e → s.cache q = some e := by
    intro q e hq
    have hq : (if q = p then none else s.cache q) = some e := hq
    split at hq
    · cases hq
    · exact hq
  refine ⟨fun q e hq => h.cached q e (hdrop q e hq), h.held, fun t u ht hr htouch hpend e he =>
    h.fresh t u ht hr htouch hpend e (hdrop _ _ he),
    ?_, h.apart, h.row, h.alone, h.uncreated, ?_⟩
  · intro t u ht hr hw htouch hpend
    cases hc : (s.drop p).cache u.proc with
    | none => rfl
    | some e =>
      have hnone := h.unseen t u ht hr hw htouch hpend
      rw [hdrop _ _ hc] at hnone
      cases hnone
  · intro j other hj
    exact (h.calls j other hj).frame_rows ⟨rfl, rfl, rfl⟩ (fun _ ho => ho) (fun _ hl => hl)

theorem evict_cases (s : Caching) (p : Nat) (answer : CacheAnswer) :
    answer = .failed ∧ s.evict p answer = s ∨ s.evict p answer = s.drop p := by
  unfold evict
  split
  · exact Or.inl ⟨‹_›, rfl⟩
  · exact Or.inr rfl

/-- The instance is granted. -/
theorem Inv.acquire (h : s.Inv) {p : Nat} (hfree : s.owner = none ∨ s.owner = some p) :
    ({ s with owner := some p } : Caching).Inv := by
  have hkeep : ∀ q, s.owner = some q → some p = some q := by
    intro q hq
    rcases hfree with hnone | hp
    · rw [hnone] at hq
      cases hq
    · exact hp.symm.trans hq
  refine ⟨?_, ?_, ?_, h.unseen, h.apart, h.row, h.alone, h.uncreated, ?_⟩
  · intro q e hq
    rcases h.cached q e hq with htouch | ⟨ho, hb⟩
    · exact Or.inl htouch
    · exact Or.inr ⟨hkeep q ho, hb⟩
  · intro t u ht hr hw
    exact (h.held t u ht hr hw).imp (hkeep _) id
  · intro t u ht hr htouch hpend e he
    obtain ⟨hv, ho⟩ := h.fresh t u ht hr htouch hpend e he
    exact ⟨hv, hkeep _ ho⟩
  · intro j other hj
    exact (h.calls j other hj).frame_rows ⟨rfl, rfl, rfl⟩ (fun _ ho => hkeep _ ho) (fun _ hl => hl)

/-- The instance is given up, with nothing that relies on it. -/
theorem Inv.relinquish (h : s.Inv) {p : Nat} (hcache : s.cache p = none)
    (hcalls : ∀ (j : Nat) other, s.calls[j]? = some other → other.proc = p → other.owning = false)
    (htxs : ∀ (t : Nat) u, s.txs[t]? = some u → u.proc = p → u.uses = false) :
    ({ s with owner := if s.owner = some p then none else s.owner } : Caching).Inv := by
  have hkeep : ∀ q, q ≠ p → s.owner = some q → (if s.owner = some p then none else s.owner) = some q := by
    intro q hne hq
    rw [if_neg]
    · exact hq
    · intro hp
      rw [hp] at hq
      exact hne (Option.some.inj hq).symm
  refine ⟨?_, ?_, ?_, h.unseen, h.apart, h.row, h.alone, h.uncreated, ?_⟩
  · intro q e hq
    have hne : q ≠ p := by
      rintro rfl
      have hq : s.cache q = some e := hq
      rw [hcache] at hq
      cases hq
    rcases h.cached q e hq with htouch | ⟨ho, hb⟩
    · exact Or.inl htouch
    · exact Or.inr ⟨hkeep q hne ho, hb⟩
  · intro t u ht hr hw
    have hne : u.proc ≠ p := by
      intro hp
      have hno := htxs t u ht hp
      rw [uses_of_written hr hw] at hno
      cases hno
    exact (h.held t u ht hr hw).imp (hkeep _ hne) id
  · intro t u ht hr htouch hpend e he
    have hne : u.proc ≠ p := by
      intro hp
      have hno := htxs t u ht hp
      rw [uses_of_touched (by rw [hr]; decide) htouch] at hno
      cases hno
    obtain ⟨hv, ho⟩ := h.fresh t u ht hr htouch hpend e he
    exact ⟨hv, hkeep _ hne ho⟩
  · intro j other hj
    refine (h.calls j other hj).frame_rows ⟨rfl, rfl, rfl⟩ ?_ (fun _ hl => hl)
    intro howning ho
    refine hkeep _ ?_ ho
    intro hp
    rw [hcalls j other hj hp] at howning
    cases howning

/-- The cache of the process has what the call's transaction sees, and the transaction knows of it. -/
def Clean (s : Caching) (call : CacheCall) : Prop :=
  ∀ e, s.cache call.proc = some e → s.view call.tx = some e ∧ s.owner = some call.proc ∧
    ∀ (t : Nat) u, call.tx = some t → s.txs[t]? = some u → u.touched = true

/-- A call goes on to another stage, and takes or leaves the lock. -/
theorem Inv.move (h : s.Inv) (hi : s.calls[i]? = some call) {stage : CacheStage} {lock : Nat → Option Nat}
    (hlock : ∀ (j : Nat) (other : CacheCall), j ≠ i → s.lock other.proc = some j → lock other.proc = some j)
    (hmine : (({ s with lock := lock } : Caching).setStage i call stage).CallOk i (call.withStage stage))
    (hdone : call.writing = true → (call.withStage stage).writing = false → s.Clean call)
    (hbegin : (call.withStage stage).underWay = true → call.underWay = true ∨ s.apart call = true)
    (hcreate : (call.withStage stage).creating = true → call.creating = true) :
    (({ s with lock := lock } : Caching).setStage i call stage).Inv := by
  obtain ⟨hlt, -⟩ := List.getElem?_eq_some_iff.mp hi
  -- a commit that was pending is so still, unless it was this call's
  have hpending : ∀ p x, ¬ (({ s with lock := lock } : Caching).setStage i call stage).Pending p x →
      ¬ s.Pending p x ∨ (call.proc = p ∧ call.tx = x ∧ s.Clean call) := by
    intro p x hnot
    by_cases hp : s.Pending p x
    · obtain ⟨j, other, hj, hproc, hx, hw⟩ := hp
      by_cases hji : j = i
      · subst hji
        rw [hi] at hj
        cases hj
        refine Or.inr ⟨hproc, hx, hdone hw ?_⟩
        by_contra hstill
        refine hnot ⟨j, call.withStage stage, ?_, hproc, hx, by simpa using hstill⟩
        exact List.getElem?_set_self hlt
      · refine absurd ⟨j, other, ?_, hproc, hx, hw⟩ hnot
        rw [← hj]
        exact List.getElem?_set_ne (Ne.symm hji)
    · exact Or.inl hp
  refine ⟨?_, h.held, ?_, ?_, h.apart, h.row, ?_, ?_, ?_⟩
  · intro p e he
    rcases h.cached p e he with htouch | ⟨ho, hb⟩
    · exact Or.inl htouch
    · refine Or.inr ⟨ho, fun hnot => ?_⟩
      rcases hpending p none hnot with hno | ⟨rfl, hx, hclean⟩
      · exact hb hno
      · have hview := (hclean e he).1
        rw [hx] at hview
        exact hview
  · intro t u ht hr htouch hnot e he
    rcases hpending _ _ hnot with hno | ⟨hproc, hx, hclean⟩
    · exact h.fresh t u ht hr htouch hno e he
    · rw [← hproc] at he ⊢
      obtain ⟨hview, ho, -⟩ := hclean e he
      rw [hx] at hview
      exact ⟨hview, ho⟩
  · intro t u ht hr hw htouch hnot
    rcases hpending _ _ hnot with hno | ⟨hproc, hx, hclean⟩
    · exact h.unseen t u ht hr hw htouch hno
    · cases hc : s.cache u.proc with
      | none => exact hc
      | some e =>
        rw [← hproc] at hc
        have htrue := (hclean e hc).2.2 t u hx ht
        rw [htouch] at htrue
        cases htrue
  · intro t u j other ht hj huses hproc hway
    rcases getElem?_set_cases hj with ⟨rfl, rfl⟩ | ⟨-, hj⟩
    · rcases hbegin hway with hbefore | hapart
      · exact h.alone t u j call ht hi huses hproc hbefore
      · exact apart_tx hapart ht hproc.symm huses
    · exact h.alone t u j other ht hj huses hproc hway
  · intro t u j other ht hj hr hw hc
    rcases getElem?_set_cases hj with ⟨rfl, rfl⟩ | ⟨-, hj⟩
    · exact h.uncreated t u j call ht hi hr hw (hcreate hc)
    · exact h.uncreated t u j other ht hj hr hw hc
  · intro j other hj
    rcases getElem?_set_cases hj with ⟨rfl, rfl⟩ | ⟨hne, hj⟩
    · exact hmine
    · exact (h.calls j other hj).frame_rows ⟨rfl, rfl, rfl⟩ (fun _ ho => ho) (fun _ hl => hlock j other hne hl)

/-! ### Writes of a transaction -/

theorem writeTx_eq (ht : s.txs[t]? = some u) (f : CacheTx → CacheTx) : s.writeTx t f = s.setTx t (f u) := by
  unfold writeTx
  rw [ht]

theorem getElem?_set_txs (ht : s.txs[t]? = some u) (v : CacheTx) : (s.txs.set t v)[t]? = some v := by
  obtain ⟨hlt, -⟩ := List.getElem?_eq_some_iff.mp ht
  exact List.getElem?_set_self hlt

/-- A transaction that has changed elsewhere is seen as before. -/
theorem view_set_ne {t' : Nat} (hne : t' ≠ t) :
    (s.setTx t v).view (some t') = s.view (some t') := by
  unfold view
  dsimp only
  rw [List.getElem?_set_ne (Ne.symm hne)]

theorem view_set_same {x : Option Nat} (ht : s.txs[t]? = some u) (hw : v.written = u.written) :
    (s.setTx t v).view x = s.view x := by
  cases x with
  | none => rfl
  | some t' =>
    by_cases hne : t' = t
    · subst hne
      rw [view_some ht, view_some (getElem?_set_txs ht v), hw]
    · exact view_set_ne hne

/-- What a call knows of its transaction. -/
theorem tx_set (hu : s.txs[t]? = some u) (hproc : v.proc = u.proc)
    (hphase : call.tx = some t → call.stage.isReturned = false → u.phase = .running → v.phase = .running)
    (t' : Nat) (u' : CacheTx)
    (hx : call.tx = some t') (hu' : s.txs[t']? = some u') : ∃ u'', (s.txs.set t v)[t']? = some u'' ∧ u''.proc = u'.proc ∧
      (call.stage.isReturned = false → u'.phase = .running → u''.phase = .running) := by
  by_cases hne : t' = t
  · subst hne
    rw [hu] at hu'
    cases hu'
    exact ⟨v, getElem?_set_txs hu v, hproc, hphase hx⟩
  · exact ⟨u', (List.getElem?_set_ne (Ne.symm hne)).trans hu', rfl, fun _ hp => hp⟩

theorem row_set_same {x : Option Nat} (ht : s.txs[t]? = some u) (hw : v.written = u.written) :
    (s.setTx t v).row x = s.row x := by
  cases x with
  | none => rfl
  | some t' =>
    by_cases hne : t' = t
    · subst hne
      rw [row_some ht, row_some (getElem?_set_txs ht v), hw]
    · unfold Caching.row
      dsimp only
      rw [List.getElem?_set_ne (Ne.symm hne)]

/-- One transaction of the process has the instance, also where it has changed. -/
theorem Inv.apart_set (h : s.Inv)
    (honly : ∀ (t' : Nat) u', s.txs[t']? = some u' → u'.uses = true → u'.proc = v.proc → t' = t) (t1 : Nat) (u1 : CacheTx)
    (t2 : Nat) (u2 : CacheTx) (ht1 : (s.txs.set t v)[t1]? = some u1) (ht2 : (s.txs.set t v)[t2]? = some u2)
    (hp : u1.proc = u2.proc) (huses1 : u1.uses = true) (huses2 : u2.uses = true) : t1 = t2 := by
  rcases getElem?_set_cases ht1 with ⟨rfl, rfl⟩ | ⟨-, hold1⟩
  · rcases getElem?_set_cases ht2 with ⟨rfl, rfl⟩ | ⟨-, hold2⟩
    · rfl
    · exact (honly t2 u2 hold2 huses2 hp.symm).symm
  · rcases getElem?_set_cases ht2 with ⟨rfl, rfl⟩ | ⟨-, hold2⟩
    · exact honly t1 u1 hold1 huses1 hp
    · exact h.apart t1 u1 t2 u2 hold1 hold2 hp huses1 huses2

theorem putAt_self {α : Type} (f : Nat → α) (k : Nat) (a : α) : putAt f k a k = a := if_pos rfl

theorem putAt_ne {α : Type} {f : Nat → α} {k : Nat} {a : α} (hne : j ≠ k) : putAt f k a j = f j := if_neg hne

theorem put_calls (p : Nat) (x : Option Nat) (e : InstanceEntry) (answer : CacheAnswer) :
    (s.put p x e answer).calls = s.calls := by
  unfold put writeTx
  dsimp only
  split
  · rfl
  · split <;> rfl

theorem put_lock (p : Nat) (x : Option Nat) (e : InstanceEntry) (answer : CacheAnswer) :
    (s.put p x e answer).lock = s.lock := by
  unfold put writeTx
  dsimp only
  split
  · rfl
  · split <;> rfl

/-- An entry that the call's transaction sees is put, or the `Set` fails and it is seen what was there. -/
theorem Inv.put (h : s.Inv) (hi : s.calls[i]? = some call) (hway : call.underWay = true) (howner : s.owner = some call.proc)
    (hview : s.view call.tx = some e) (hapart : s.apart call = true) {answer : CacheAnswer}
    (hkept : answer = .failed → ∀ e', s.cache call.proc = some e' → s.view call.tx = some e') :
    (s.put call.proc call.tx e answer).Inv ∧ (s.put call.proc call.tx e answer).Clean call := by
  obtain ⟨cache, hcache⟩ : ∃ cache, cache = if answer = .failed then s.cache else putAt s.cache call.proc (some e) := ⟨_, rfl⟩
  have hother : ∀ q, q ≠ call.proc → cache q = s.cache q := by
    intro q hq
    rw [hcache]
    split
    · rfl
    · exact putAt_ne hq
  have hput : ∀ {e'}, cache call.proc = some e' → s.view call.tx = some e' := by
    intro e' he'
    rw [hcache] at he'
    split at he'
    · exact hkept ‹_› e' he'
    · rw [putAt_self] at he'
      exact hview.trans he'
  unfold Caching.put
  rw [← hcache]
  cases hx : call.tx with
  | none =>
    rw [hx] at hput
    -- no transaction of the process has the instance
    have hnone : ∀ (t : Nat) u, s.txs[t]? = some u → u.uses = true → u.proc ≠ call.proc := by
      intro t u ht huses hproc
      have htx := apart_tx hapart ht hproc huses
      rw [hx] at htx
      cases htx
    refine ⟨⟨?_, h.held, ?_, ?_, h.apart, h.row, h.alone, h.uncreated, ?_⟩, ?_⟩
    · intro q e' hq
      by_cases hqp : q = call.proc
      · subst hqp
        exact Or.inr ⟨howner, fun _ => hput hq⟩
      · exact h.cached q e' ((hother q hqp).symm.trans hq)
    · intro t u ht hr htouch hpend e' he'
      have hne := hnone t u ht (uses_of_touched (by rw [hr]; decide) htouch)
      exact h.fresh t u ht hr htouch hpend e' ((hother _ hne).symm.trans he')
    · intro t u ht hr hw htouch hpend
      have hne := hnone t u ht (uses_of_written hr hw)
      exact (hother _ hne).trans (h.unseen t u ht hr hw htouch hpend)
    · intro j other hj
      exact (h.calls j other hj).frame_rows ⟨rfl, rfl, rfl⟩ (fun _ ho => ho) (fun _ hl => hl)
    · intro e' he'
      rw [hx]
      exact ⟨hput he', howner, fun t u htx => nomatch htx⟩
  | some t =>
    rw [hx] at hput
    obtain ⟨u, hu, hproc, hphase⟩ := (h.calls i call hi).tx t hx
    have hrunning := hphase (CacheCall.not_returned_of_underWay hway)
    dsimp only
    rw [writeTx_eq (s := { s with cache := cache }) hu]
    have hsame : ∀ x, ({ s with cache := cache, txs := s.txs.set t { u with touched := true } } : Caching).view x =
      s.view x :=
      fun x => view_set_same hu rfl
    have hself := getElem?_set_txs hu { u with touched := true }
    have honly := fun (t' : Nat) u' => @apart_only s t call hapart hx t' u'
    refine ⟨⟨?_, ?_, ?_, ?_, ?_, ?_, ?_, ?_, ?_⟩, ?_⟩
    · intro q e' hq
      by_cases hqp : q = call.proc
      · exact Or.inl ⟨t, _, hself, hproc.trans hqp.symm, by rw [hrunning]; decide, rfl⟩
      · rcases h.cached q e' ((hother q hqp).symm.trans hq) with ⟨t', u', ht', hproc', hphase', htouch⟩ | hown
        · refine Or.inl ⟨t', u', ?_, hproc', hphase', htouch⟩
          rw [← ht']
          refine List.getElem?_set_ne ?_
          rintro rfl
          rw [hu] at ht'
          cases ht'
          exact hqp (hproc'.symm.trans hproc)
        · exact Or.inr hown
    · intro t' u' ht' hr hw
      rcases getElem?_set_cases ht' with ⟨rfl, rfl⟩ | ⟨-, ht'⟩
      · exact h.held t' u hu hrunning hw
      · exact h.held t' u' ht' hr hw
    · intro t' u' ht' hr htouch hpend e' he'
      rw [hsame]
      rcases getElem?_set_cases ht' with ⟨rfl, rfl⟩ | ⟨hne, ht'⟩
      · have he' : cache u.proc = some e' := he'
        rw [hproc] at he'
        exact ⟨hput he', howner.trans (congrArg some hproc.symm)⟩
      · have hnp : u'.proc ≠ call.proc := fun hp => hne (honly t' u' ht' (uses_of_touched (by rw [hr]; decide) htouch) hp)
        exact h.fresh t' u' ht' hr htouch hpend e' ((hother _ hnp).symm.trans he')
    · intro t' u' ht' hr hw htouch hpend
      rcases getElem?_set_cases ht' with ⟨rfl, rfl⟩ | ⟨hne, ht'⟩
      · cases htouch
      · have hnp : u'.proc ≠ call.proc := fun hp => hne (honly t' u' ht' (uses_of_written hr hw) hp)
        exact (hother _ hnp).trans (h.unseen t' u' ht' hr hw htouch hpend)
    · exact h.apart_set (fun t' u' ht' huses hp => honly t' u' ht' huses (hp.trans hproc))
    · intro t1 u1 t2 u2 ht1 ht2 hr1 hr2 hw1 hw2
      have hback : ∀ (k : Nat) v, (s.txs.set t { u with touched := true })[k]? = some v →
        v.phase = .running → v.written.isSome = true →
          ∃ v' : CacheTx, s.txs[k]? = some v' ∧ v'.phase = .running ∧ v'.written.isSome = true := by
        intro k v hk hr hw
        rcases getElem?_set_cases hk with ⟨rfl, rfl⟩ | ⟨-, hk⟩
        · exact ⟨u, hu, hr, hw⟩
        · exact ⟨v, hk, hr, hw⟩
      obtain ⟨v1, hv1, hvr1, hvw1⟩ := hback t1 u1 ht1 hr1 hw1
      obtain ⟨v2, hv2, hvr2, hvw2⟩ := hback t2 u2 ht2 hr2 hw2
      exact h.row t1 v1 t2 v2 hv1 hv2 hvr1 hvr2 hvw1 hvw2
    · intro t' u' j other ht' hj huses hp hwayj
      rcases getElem?_set_cases ht' with ⟨rfl, rfl⟩ | ⟨-, ht'⟩
      · exact apart_call hapart hx hj (hp.trans hproc) hwayj
      · exact h.alone t' u' j other ht' hj huses hp hwayj
    · intro t' u' j other ht' hj hr hw hc
      rcases getElem?_set_cases ht' with ⟨rfl, rfl⟩ | ⟨-, ht'⟩
      · exact h.uncreated t' u j other hu hj hr hw hc
      · exact h.uncreated t' u' j other ht' hj hr hw hc
    · intro j other hj
      refine (h.calls j other hj).frame ⟨[], (List.append_nil _).symm⟩ ?_ (fun _ ho => ho) (fun _ hl => hl) ?_ ?_
      · exact tx_set hu rfl (fun _ _ hp => hp)
      · intro e' _ he'
        rw [hsame]
        exact he'
      · intro _ hc
        have hrow := row_set_same (v := { u with touched := true }) (x := other.tx) hu rfl
        exact (congrArg Option.isSome hrow).trans hc
    · intro e' he'
      rw [hx]
      refine ⟨(hsame _).trans (hput he'), howner, ?_⟩
      intro t' u' htx hu'
      cases htx
      rw [hself] at hu'
      cases hu'
      rfl

/-! ### Writes to the backing store -/

theorem pending_set (hi : s.calls[i]? = some call) {stage : CacheStage} (hnot : call.writing = false)
    {p : Nat} {x : Option Nat}
    (hcalls : s'.calls = s.calls.set i (call.withStage stage)) (hp : s.Pending p x) : s'.Pending p x := by
  obtain ⟨j, other, hj, hproc, hx, hw⟩ := hp
  have hne : i ≠ j := by
    rintro rfl
    rw [hi] at hj
    cases hj
    rw [hnot] at hw
    cases hw
  refine ⟨j, other, ?_, hproc, hx, hw⟩
  rw [hcalls, List.getElem?_set_ne hne]
  exact hj

/-- A write in a transaction. -/
theorem Inv.write_tx (h : s.Inv) (hi : s.calls[i]? = some call) (hx : call.tx = some t) (hu : s.txs[t]? = some u)
    (hproc : u.proc = call.proc) (hapart : s.apart call = true) (hfree : s.rowFree call.tx = true)
    {stage : CacheStage} (hnot : call.writing = false) (hheld : s.owner = some call.proc ∨ s.backing = none)
    (hcache : (call.withStage stage).writing = true ∨ (¬ s.Pending call.proc (some t) → s.cache call.proc = none))
    (hothers : ∀ (j : Nat) other, j ≠ i → s.calls[j]? = some other → other.tx = some t → other.sees = none)
    (hcreate : ∀ (j : Nat) other, j ≠ i → s.calls[j]? = some other → other.creating = true → other.tx = some t)
    (hmine : ((s.setTx t { u with written := some e }).setStage i call stage).CallOk i (call.withStage stage)) :
    ((s.setTx t { u with written := some e }).setStage i call stage).Inv := by
  obtain ⟨hlt, -⟩ := List.getElem?_eq_some_iff.mp hi
  have hself := getElem?_set_txs hu { u with written := some e }
  have hset := @pending_set s ((s.setTx t { u with written := some e }).setStage i call stage) i call hi stage hnot
  have hempty : ¬ ((s.setTx t { u with written := some e }).setStage i call stage).Pending
      u.proc (some t) → s.cache u.proc = none := by
    intro hpend
    rcases hcache with hw | hnone
    · exact absurd ⟨i, _, List.getElem?_set_self hlt, hproc.symm, hx, hw⟩ hpend
    · rw [hproc]
      exact hnone (fun hp => hpend (hset rfl (by rw [hproc]; exact hp)))
  have honly := fun (t' : Nat) u' => @apart_only s t call hapart hx t' u'
  refine ⟨?_, ?_, ?_, ?_, ?_, ?_, ?_, ?_, ?_⟩
  · intro q e' hq
    rcases h.cached q e' hq with ⟨t', u', ht', hproc', hphase', htouch⟩ | ⟨ho, hb⟩
    · left
      by_cases hne : t' = t
      · subst hne
        rw [hu] at ht'
        cases ht'
        exact ⟨t', _, hself, hproc', hphase', htouch⟩
      · exact ⟨t', u', (List.getElem?_set_ne (Ne.symm hne)).trans ht', hproc', hphase', htouch⟩
    · exact Or.inr ⟨ho, fun hpend => hb (fun hp => hpend (hset rfl hp))⟩
  · intro t' u' ht' hr hw
    rcases getElem?_set_cases ht' with ⟨rfl, rfl⟩ | ⟨-, hold⟩
    · exact hheld.imp (fun ho => ho.trans (congrArg some hproc.symm)) id
    · exact h.held t' u' hold hr hw
  · intro t' u' ht' hr htouch hpend e' he'
    rcases getElem?_set_cases ht' with ⟨rfl, rfl⟩ | ⟨hne, hold⟩
    · have he' : s.cache u.proc = some e' := he'
      rw [hempty hpend] at he'
      cases he'
    · obtain ⟨hv, ho⟩ := h.fresh t' u' hold hr htouch (fun hp => hpend (hset rfl hp)) e' he'
      exact ⟨(view_set_ne hne).trans hv, ho⟩
  · intro t' u' ht' hr hw htouch hpend
    rcases getElem?_set_cases ht' with ⟨rfl, rfl⟩ | ⟨hne, hold⟩
    · exact hempty hpend
    · exact h.unseen t' u' hold hr hw htouch (fun hp => hpend (hset rfl hp))
  · exact h.apart_set (fun t' u' ht' huses hp => honly t' u' ht' huses (hp.trans hproc))
  · intro t1 u1 t2 u2 ht1 ht2 hr1 hr2 hw1 hw2
    have hrow : ∀ (t' : Nat) u', s.txs[t']? = some u' → u'.phase = .running → u'.written.isSome = true → t' = t := by
      intro t' u' ht' hr' hw'
      have hfr := rowFree_iff.mp hfree t' u' ht' hr' hw'
      rw [hx] at hfr
      exact (Option.some.inj hfr).symm
    rcases getElem?_set_cases ht1 with ⟨rfl, rfl⟩ | ⟨-, hold1⟩
    · rcases getElem?_set_cases ht2 with ⟨rfl, rfl⟩ | ⟨-, hold2⟩
      · rfl
      · exact (hrow t2 u2 hold2 hr2 hw2).symm
    · rcases getElem?_set_cases ht2 with ⟨rfl, rfl⟩ | ⟨-, hold2⟩
      · exact hrow t1 u1 hold1 hr1 hw1
      · exact h.row t1 u1 t2 u2 hold1 hold2 hr1 hr2 hw1 hw2
  · intro t' u' j other ht' hj huses hp hwayj
    rcases getElem?_set_cases hj with ⟨rfl, rfl⟩ | ⟨-, hjold⟩
    · rcases getElem?_set_cases ht' with ⟨rfl, rfl⟩ | ⟨-, hold⟩
      · exact hx
      · rw [honly t' u' hold huses hp.symm]
        exact hx
    · rcases getElem?_set_cases ht' with ⟨rfl, rfl⟩ | ⟨-, hold⟩
      · exact apart_call hapart hx hjold (hp.trans hproc) hwayj
      · exact h.alone t' u' j other hold hjold huses hp hwayj
  · intro t' u' j other ht' hj hr hw hc
    rcases getElem?_set_cases hj with ⟨rfl, rfl⟩ | ⟨hji, hjold⟩
    · rcases getElem?_set_cases ht' with ⟨rfl, rfl⟩ | ⟨-, hold⟩
      · exact hx
      · exact rowFree_iff.mp hfree t' u' hold hr hw
    · rcases getElem?_set_cases ht' with ⟨rfl, rfl⟩ | ⟨-, hold⟩
      · exact hcreate j other hji hjold hc
      · exact h.uncreated t' u' j other hold hjold hr hw hc
  · intro j other hj
    rcases getElem?_set_cases hj with ⟨rfl, rfl⟩ | ⟨hji, hjold⟩
    · exact hmine
    · refine (h.calls j other hjold).frame ⟨[], (List.append_nil _).symm⟩ ?_ (fun _ ho => ho) (fun _ hl => hl) ?_ ?_
      · exact tx_set hu rfl (fun _ _ hp => hp)
      · intro e' hsees he'
        cases hox : other.tx with
        | none =>
          rw [hox] at he'
          exact he'
        | some t' =>
          by_cases hne : t' = t
          · subst hne
            rw [hothers j other hji hjold hox] at hsees
            cases hsees
          · rw [hox] at he'
            exact (view_set_ne hne).trans he'
      · intro hc hrow
        rw [hcreate j other hji hjold hc, row_some hself]
        rfl

/-- A write outside a transaction. -/
theorem Inv.write_row (h : s.Inv) (hi : s.calls[i]? = some call) (hx : call.tx = none) (hfree : s.rowFree none = true)
    {stage : CacheStage} (hnot : call.writing = false) (hbegin : call.underWay = true ∨ s.apart call = true)
    (hcached : ∀ q e', s.cache q = some e' → s.TouchedBy q ∨
      (s.owner = some q ∧ q = call.proc ∧ (call.withStage stage).writing = true))
    (hfresh : ∀ (t : Nat) u, s.txs[t]? = some u → u.phase = .running → u.touched = true → ¬ s.Pending u.proc (some t) →
      s.cache u.proc = none)
    (hothers : ∀ (j : Nat) other, j ≠ i → s.calls[j]? = some other → other.sees = none)
    (hcreate : ∀ (j : Nat) other, j ≠ i → s.calls[j]? = some other → other.creating = false)
    (hmine : ((s.replace e).setStage i call stage).CallOk i (call.withStage stage)) :
    ((s.replace e).setStage i call stage).Inv := by
  obtain ⟨hlt, -⟩ := List.getElem?_eq_some_iff.mp hi
  have hset := @pending_set s ((s.replace e).setStage i call stage) i call hi stage hnot
  have hnobody : ∀ (t : Nat) u, s.txs[t]? = some u → u.phase = .running → u.written.isSome = true → False := by
    intro t u ht hr hw
    cases rowFree_iff.mp hfree t u ht hr hw
  refine ⟨?_, fun t u ht hr hw => (hnobody t u ht hr hw).elim, ?_, fun t u ht hr hw =>
    (hnobody t u ht hr hw).elim, h.apart, h.row, ?_,
    fun t u j other ht _ hr hw => (hnobody t u ht hr hw).elim, ?_⟩
  · intro q e' hq
    rcases hcached q e' hq with htouch | ⟨ho, rfl, hw⟩
    · exact Or.inl htouch
    · exact Or.inr ⟨ho, fun hpend => absurd ⟨i, _, List.getElem?_set_self hlt, rfl, hx, hw⟩ hpend⟩
  · intro t u ht hr htouch hpend e' he'
    have he' : s.cache u.proc = some e' := he'
    rw [hfresh t u ht hr htouch (fun hp => hpend (hset rfl hp))] at he'
    cases he'
  · intro t u j other ht hj huses hp hway
    rcases getElem?_set_cases hj with ⟨rfl, rfl⟩ | ⟨-, hold⟩
    · rcases hbegin with hbefore | hapart
      · exact h.alone t u j call ht hi huses hp hbefore
      · exact apart_tx hapart ht hp.symm huses
    · exact h.alone t u j other ht hold huses hp hway
  · intro j other hj
    rcases getElem?_set_cases hj with ⟨rfl, rfl⟩ | ⟨hji, hold⟩
    · exact hmine
    · refine (h.calls j other hold).frame ⟨[some e], rfl⟩ (fun t u _ hu => ⟨u, hu, rfl, fun _ hp => hp⟩) (fun _ ho => ho)
        (fun _ hl => hl) ?_ ?_
      · intro e' hsees
        rw [hothers j other hji hold] at hsees
        cases hsees
      · intro hc
        rw [hcreate j other hji hold] at hc
        cases hc

/-! ### Stages -/

theorem backing_mem_moments {since : Nat} (hle : since ≤ s.past.length) : s.backing ∈ s.moments since s.past.length := by
  unfold moments
  rw [List.take_of_length_le (by rw [List.length_append, List.length_singleton]), List.drop_append_of_le_length hle]
  exact List.mem_append_right _ (List.mem_singleton.mpr rfl)

/-- A call that goes on and does not return. -/
theorem CallOk.goes (h : s.CallOk i call) (hrows : SameRows s s') {stage : CacheStage}
    (hbefore : call.stage.isReturned = false) (hafter : stage.isReturned = false)
    (howning : (call.withStage stage).owning = true → s'.owner = some call.proc)
    (hlocking : (call.withStage stage).locking = true → s'.lock call.proc = some i)
    (hsees : ∀ e, (call.withStage stage).sees = some e → s.view call.tx = some e)
    (hcreating : (call.withStage stage).creating = true → call.creating = true) :
    s'.CallOk i (call.withStage stage) := by
  refine ⟨by rw [hrows.past]; exact h.since_le, ?_, howning, hlocking, ?_, ?_, ?_⟩
  · intro t hx
    obtain ⟨u, hu, hproc, hphase⟩ := h.tx t hx
    exact ⟨u, by rw [hrows.txs]; exact hu, hproc, fun _ => hphase hbefore⟩
  · intro e he
    exact (hrows.view _).trans (hsees e he)
  · intro hc
    have hrow := h.created (hcreating hc)
    rw [← hrows.row] at hrow
    exact hrow
  · intro e moment _ hstage
    have hstage : stage = .returned (some e) moment := hstage
    rw [hstage] at hafter
    cases hafter

/-- The same of the state. -/
theorem Inv.goes (h : s.Inv) (hi : s.calls[i]? = some call) (stage : CacheStage) (hbefore : call.stage.isReturned = false)
    (hafter : stage.isReturned = false) (howning : (call.withStage stage).owning = true → s.owner = some call.proc)
    (hlocking : (call.withStage stage).locking = true → s.lock call.proc = some i)
    (hsees : ∀ e, (call.withStage stage).sees = some e → s.view call.tx = some e)
    (hcreating : (call.withStage stage).creating = true → call.creating = true)
    (hdone : call.writing = true → (call.withStage stage).writing = true)
    (hbegin : (call.withStage stage).underWay = true → call.underWay = true ∨ s.apart call = true) :
    (s.setStage i call stage).Inv := by
  refine h.move hi (fun _ _ _ hl => hl) ?_ (fun hw hnot => nomatch (hdone hw).symm.trans hnot) hbegin hcreating
  refine (h.calls i call hi).goes ?_ hbefore hafter howning hlocking hsees hcreating
  exact ⟨rfl, rfl, rfl⟩

/-- A call that returns, and leaves the lock if it had it. -/
theorem Inv.finished (h : s.Inv) (hi : s.calls[i]? = some call) {result : Option InstanceEntry} {lock : Nat → Option Nat}
    (hlock : ∀ (j : Nat) (other : CacheCall), j ≠ i → s.lock other.proc = some j → lock other.proc = some j)
    (hresult : ∀ e, result = some e → call.op = .load → call.tx = none → s.backing = some e)
    (hdone : call.writing = true → s.Clean call) : (({ s with lock := lock } : Caching).finished i call result).Inv := by
  have hok := h.calls i call hi
  refine h.move hi hlock ?_ (fun hw _ => hdone hw) ?_ ?_
  · refine ⟨hok.since_le, ?_, ?_, ?_, ?_, ?_, ?_⟩
    · intro t hx
      obtain ⟨u, hu, hproc, -⟩ := hok.tx t hx
      exact ⟨u, hu, hproc, fun hr => nomatch hr⟩
    · intro ho
      unfold CacheCall.owning at ho
      split at ho <;> simp_all
    · intro hl
      unfold CacheCall.locking at hl
      split at hl <;> simp_all
    · intro e he
      unfold CacheCall.sees at he
      split at he <;> simp_all
    · intro hc
      have hway := CacheCall.underWay_of_creating hc
      cases hway
    · intro e moment hop hstage
      obtain ⟨hres, hmom⟩ := CacheStage.returned.inj hstage
      refine ⟨hmom ▸ Nat.le_refl _, fun hx => ?_⟩
      have hback := hresult e hres hop hx
      rw [← hback, ← hmom]
      exact backing_mem_moments hok.since_le
  · intro hway
    cases hway
  · intro hc
    cases CacheCall.underWay_of_creating hc

/-- Leaving the lock does not take it from another. -/
theorem unlock_keeps (hl : s.lock call.proc = some i) :
    ∀ (j : Nat) (other : CacheCall), j ≠ i → s.lock other.proc = some j →
      putAt s.lock call.proc none other.proc = some j := by
  intro j other hne hj
  rw [putAt_ne]
  · exact hj
  · intro hp
    rw [hp, hl] at hj
    exact hne (Option.some.inj hj).symm

/-- A call that is let in. -/
theorem Inv.lockFor (h : s.Inv) (hi : s.calls[i]? = some call) {stage : CacheStage} (hgo : s.lockFor i call stage = some s')
    (hbefore : call.stage.isReturned = false) (hafter : stage.isReturned = false)
    (howning : (call.withStage stage).owning = true → call.owning = true)
    (hsees : ∀ e, (call.withStage stage).sees = some e → call.sees = some e)
    (hcreating : (call.withStage stage).creating = true → call.creating = true)
    (hwriting : call.writing = false) (hbegin : call.underWay = true ∨ s.apart call = true) : s'.Inv := by
  have hok := h.calls i call hi
  unfold Caching.lockFor at hgo
  split at hgo
  · cases hgo
  · rename_i hfree
    cases hgo
    refine h.move hi ?_ ?_ (fun hw => nomatch hwriting.symm.trans hw) (fun _ => hbegin) hcreating
    · intro j other _ hj
      refine (putAt_ne ?_).trans hj
      intro hp
      rw [hp, hfree] at hj
      cases hj
    · refine hok.goes ?_ hbefore hafter (fun ho => hok.owning (howning ho)) ?_ (fun e he => hok.sees e (hsees e he)) hcreating
      · exact ⟨rfl, rfl, rfl⟩
      · exact fun _ => putAt_self _ _ _

/-- The port is asked: the call goes on with the instance, or without. -/
theorem acquire_cases {p : Nat} {granted other : Caching} {answer : CacheAnswer}
    (hgo : s.acquire p granted other answer = some s') :
    (answer = .granted ∧ (s.owner = none ∨ s.owner = some p) ∧ s' = { granted with owner := some p }) ∨
      (answer ≠ .granted ∧ s' = other) := by
  unfold Caching.acquire at hgo
  split at hgo
  · split at hgo
    · rename_i hfree
      cases hgo
      exact Or.inl ⟨rfl, hfree, rfl⟩
    · cases hgo
  · rename_i hne
    cases hgo
    exact Or.inr ⟨hne, rfl⟩

/-! ### Calls -/

section Calls
variable {p since : Nat} {x : Option Nat} {stage : CacheStage} {answer : CacheAnswer}

/-- An entry that is not the row's own is written by a running transaction. -/
theorem Inv.writer_of_sees (h : s.Inv) (hb : s.backing = none) (hj : s.calls[j]? = some other)
    (hrel : (∃ e, other.sees = some e) ∨ other.creating = true) :
    ∃ (t : Nat) (u : CacheTx), other.tx = some t ∧ s.txs[t]? = some u ∧ u.phase = .running ∧ u.written.isSome = true := by
  have hok := h.calls j other hj
  have hway : other.underWay = true := by
    rcases hrel with ⟨e, he⟩ | hc
    · exact CacheCall.underWay_of_sees he
    · exact CacheCall.underWay_of_creating hc
  cases hx : other.tx with
  | none =>
    rcases hrel with ⟨e, he⟩ | hc
    · have hv := hok.sees e he
      rw [hx] at hv
      exact nomatch hb.symm.trans hv
    · have hr := hok.created hc
      rw [hx] at hr
      have hr : s.backing.isSome = true := hr
      rw [hb] at hr
      cases hr
  | some t =>
    obtain ⟨u, hu, -, hphase⟩ := hok.tx t hx
    refine ⟨t, u, rfl, hu, hphase (CacheCall.not_returned_of_underWay hway), ?_⟩
    rcases hrel with ⟨e, he⟩ | hc
    · have hv := hok.sees e he
      rw [hx, view_some hu, hb, Option.or_none] at hv
      rw [hv]
      rfl
    · have hr := hok.created hc
      rw [hx, row_some hu] at hr
      exact hr

/-- Without a row, a commit that is pending is one of a transaction. -/
theorem Inv.not_pending (h : s.Inv) (hb : s.backing = none) {q : Nat} : ¬ s.Pending q none := by
  rintro ⟨j, other, hj, -, hx, hw⟩
  obtain ⟨t, u, hxt, -⟩ := h.writer_of_sees hb hj (Or.inl (CacheCall.sees_of_writing hw))
  rw [hx] at hxt
  cases hxt

theorem Inv.create_row (h : s.Inv) (hi : s.calls[i]? = some ⟨p, .create state, none, .called, since⟩)
    (hapart : s.apart ⟨p, .create state, none, .called, since⟩ = true) (hfree : s.rowFree none = true)
    (hb : s.backing = none) :
    ((s.write none ⟨state, 1⟩).setStage i ⟨p, .create state, none, .called, since⟩ (.created 1)).Inv := by
  have hok := h.calls i _ hi
  have hnobody : ∀ (t : Nat) u, s.txs[t]? = some u → u.phase = .running → u.written.isSome = true → False := by
    intro t u ht hr hw
    cases rowFree_iff.mp hfree t u ht hr hw
  refine h.write_row hi rfl hfree rfl (Or.inr hapart) ?_ ?_ ?_ ?_ ?_
  · intro q e' hq
    rcases h.cached q e' hq with htouch | ⟨-, hback⟩
    · exact Or.inl htouch
    · exact nomatch hb.symm.trans (hback (h.not_pending hb))
  · intro t u ht hr htouch hpend
    cases hc : s.cache u.proc with
    | none => rfl
    | some e' =>
      obtain ⟨hv, -⟩ := h.fresh t u ht hr htouch hpend e' hc
      rw [view_some ht, hb, Option.or_none] at hv
      exact (hnobody t u ht hr (by rw [hv]; rfl)).elim
  · intro j other _ hj
    cases hs : other.sees with
    | none => rfl
    | some e' =>
      obtain ⟨t, u, -, hu, hr, hw⟩ := h.writer_of_sees hb hj (Or.inl ⟨e', hs⟩)
      exact (hnobody t u hu hr hw).elim
  · intro j other _ hj
    cases hc : other.creating with
    | false => rfl
    | true =>
      obtain ⟨t, u, -, hu, hr, hw⟩ := h.writer_of_sees hb hj (Or.inr hc)
      exact (hnobody t u hu hr hw).elim
  · refine ⟨?_, ?_, nofun, nofun, ?_, fun _ => rfl, fun _ _ hop => nomatch hop⟩
    · exact hok.since_le.trans (by simp [setStage, replace])
    · intro t hx
      cases hx
    · intro e he
      exact he

theorem Inv.create_tx (h : s.Inv) (hi : s.calls[i]? = some ⟨p, .create state, some t, .called, since⟩)
    (hapart : s.apart ⟨p, .create state, some t, .called, since⟩ = true) (hfree : s.rowFree (some t) = true)
    (hview : s.view (some t) = none) :
    ((s.write (some t) ⟨state, 1⟩).setStage i ⟨p, .create state, some t, .called, since⟩ (.created 1)).Inv := by
  have hok := h.calls i _ hi
  obtain ⟨u, hu, hproc, hphase⟩ := hok.tx t rfl
  rw [view_some hu] at hview
  obtain ⟨hwritten, hb⟩ := Option.or_eq_none_iff.mp hview
  have heq : s.write (some t) ⟨state, 1⟩ = s.setTx t { u with written := some ⟨state, 1⟩ } := writeTx_eq hu _
  rw [heq]
  refine h.write_tx hi rfl hu hproc hapart hfree rfl (Or.inr hb) (Or.inr ?_) ?_ ?_ ?_
  · intro hpend
    cases hc : s.cache p with
    | none => rfl
    | some e' =>
      exfalso
      rcases h.cached p e' hc with ⟨t', u', hu', hproc', hover, htouch⟩ | ⟨-, hback⟩
      · -- the transaction itself has put the entry there, and would see it
        have htx : some t = some t' := apart_tx hapart hu' hproc' (uses_of_touched hover htouch)
        cases htx
        rw [hu] at hu'
        cases hu'
        rw [← hproc'] at hc hpend
        obtain ⟨hv, -⟩ := h.fresh t u hu (hphase rfl) htouch hpend e' hc
        rw [view_some hu, hwritten, hb] at hv
        cases hv
      · exact nomatch hb.symm.trans (hback (h.not_pending hb))
  · intro j other _ hj hx
    cases hs : other.sees with
    | none => rfl
    | some e' =>
      have hv := (h.calls j other hj).sees e' hs
      rw [hx, view_some hu, hwritten, hb] at hv
      cases hv
  · intro j other _ hj hc
    obtain ⟨t', u', hx', hu', hr', hw'⟩ := h.writer_of_sees hb hj (Or.inr hc)
    rw [hx']
    exact (rowFree_iff.mp hfree t' u' hu' hr' hw').symm
  · have hself := getElem?_set_txs hu { u with written := some ⟨state, 1⟩ }
    refine ⟨hok.since_le, ?_, nofun, nofun, ?_, ?_, fun _ _ hop => nomatch hop⟩
    · intro t' hx
      cases hx
      exact ⟨_, hself, hproc, fun _ => hphase rfl⟩
    · intro e he
      rw [← he, view_some hself]
      rfl
    · intro _
      rw [row_some hself]
      rfl

/-- Under the lock, an entry that is found is the row's as the call's transaction sees it. -/
theorem Inv.view_of_cached (h : s.Inv) (hi : s.calls[i]? = some call) (hway : call.underWay = true)
    (hlocking : call.locking = true) (hwriting : call.writing = false) (hc : s.cache call.proc = some e) :
    s.view call.tx = some e := by
  have hok := h.calls i call hi
  -- who is about to bring the cache up to date has the lock
  have hpending : ∀ x, ¬ s.Pending call.proc x := by
    rintro x ⟨j, other, hj, hproc, -, hw⟩
    have hlock := (h.calls j other hj).locking (CacheCall.locking_of_writing hw)
    rw [hproc, hok.locking hlocking] at hlock
    cases hlock
    rw [hi] at hj
    cases hj
    rw [hwriting] at hw
    cases hw
  have hfresh : ∀ {t : Nat} {u : CacheTx}, s.txs[t]? = some u → call.tx = some t → u.proc = call.proc → u.touched = true →
      s.view call.tx = some e := by
    intro t u hu hx hproc htouch
    obtain ⟨v, hv, -, hphase⟩ := hok.tx t hx
    rw [hu] at hv
    cases hv
    rw [hx]
    refine (h.fresh t u hu (hphase (CacheCall.not_returned_of_underWay hway)) htouch ?_ e ?_).1
    · rw [hproc]
      exact hpending _
    · rw [hproc]
      exact hc
  rcases h.cached call.proc e hc with ⟨t, u, hu, hproc, hover, htouch⟩ | ⟨-, hback⟩
  · exact hfresh hu (h.alone t u i call hu hi (uses_of_touched hover htouch) hproc.symm hway) hproc htouch
  · have hback := hback (hpending none)
    cases hx : call.tx with
    | none => exact hback
    | some t =>
      obtain ⟨u, hu, hproc, hphase⟩ := hok.tx t hx
      by_cases htouch : u.touched = true
      · rw [← hx]
        exact hfresh hu hx hproc htouch
      · rw [view_some hu]
        cases hw : u.written with
        | none => exact hback
        | some e' =>
          have hnone := h.unseen t u hu (hphase (CacheCall.not_returned_of_underWay hway))
            (by rw [hw]; rfl) (by simpa using htouch)
            (by rw [hproc]; exact hpending _)
          rw [hproc, hc] at hnone
          cases hnone

theorem Inv.create (h : s.Inv) (hi : s.calls[i]? = some ⟨p, .create state, x, stage, since⟩)
    (hapart : s.apart ⟨p, .create state, x, stage, since⟩ = true)
    (hgo : s.goOn i ⟨p, .create state, x, stage, since⟩ answer = some s') : s'.Inv := by
  have hok := h.calls i _ hi
  have hreturns : (s.finished i ⟨p, .create state, x, stage, since⟩ none).Inv :=
    h.finished hi (fun _ _ _ hl => hl) (fun _ hr => nomatch hr) nofun
  cases stage with
  | called =>
    unfold goOn at hgo
    dsimp only at hgo
    split at hgo
    · cases hgo
      exact hreturns
    · split at hgo
      · cases hgo
      · rename_i hfree
        have hfree : s.rowFree x = true := by simpa using hfree
        split at hgo
        · cases hgo
          exact hreturns
        · rename_i hview
          cases hgo
          cases x with
          | none => exact h.create_row hi hapart hfree hview
          | some t => exact h.create_tx hi hapart hfree hview
  | created tok =>
    rcases acquire_cases hgo with ⟨-, hfree, rfl⟩ | ⟨-, rfl⟩
    · exact (h.acquire hfree).goes hi (.owns tok) rfl rfl (fun _ => rfl) nofun hok.sees (fun _ => rfl) nofun
        (fun _ => Or.inl rfl)
    · exact hreturns
  | owns tok =>
    exact h.lockFor hi hgo rfl rfl (fun _ => rfl) (fun _ he => he) (fun _ => rfl) rfl (Or.inl rfl)
  | writes tok =>
    cases hgo
    have hkept : answer = .failed → ∀ e', s.cache p = some e' → s.view x = some e' :=
      fun _ _ hc => h.view_of_cached hi rfl rfl rfl hc
    obtain ⟨hput, -⟩ := h.put hi rfl (hok.owning rfl) (hok.sees _ rfl) hapart hkept
    refine hput.finished (by rw [put_calls]; exact hi) ?_ (fun _ hr => nomatch hr) nofun
    rw [put_lock]
    exact unlock_keeps (hok.locking rfl)
  | _ => cases hgo

theorem put_backing (p : Nat) (x : Option Nat) (e : InstanceEntry) (answer : CacheAnswer) :
    (s.put p x e answer).backing = s.backing := by
  unfold put writeTx
  dsimp only
  split
  · rfl
  · split <;> rfl

theorem Inv.load (h : s.Inv) (hi : s.calls[i]? = some ⟨p, .load, x, stage, since⟩)
    (hapart : s.apart ⟨p, .load, x, stage, since⟩ = true)
    (hgo : s.goOn i ⟨p, .load, x, stage, since⟩ answer = some s') : s'.Inv := by
  have hok := h.calls i _ hi
  cases stage with
  | called =>
    rcases acquire_cases hgo with ⟨-, hfree, rfl⟩ | ⟨-, rfl⟩
    · exact (h.acquire hfree).goes hi .waits rfl rfl (fun _ => rfl) nofun (fun _ he => nomatch he) nofun nofun
        (fun _ => Or.inr hapart)
    · exact h.goes hi .bypasses rfl rfl nofun nofun (fun _ he => nomatch he) nofun nofun (fun _ => Or.inr hapart)
  | bypasses =>
    cases hgo
    refine h.finished hi (fun _ _ _ hl => hl) ?_ nofun
    intro e hres _ hx
    cases hx
    split at hres
    · cases hres
    · exact hres
  | waits => exact h.lockFor hi hgo rfl rfl (fun _ => rfl) (fun _ he => nomatch he) nofun rfl (Or.inl rfl)
  | looks =>
    unfold goOn at hgo
    dsimp only at hgo
    split at hgo
    · rename_i e hc
      have hc : s.cache p = some e := by
        split at hc
        · cases hc
        · exact hc
      cases hgo
      refine h.finished hi (unlock_keeps (hok.locking rfl)) ?_ nofun
      intro e' hres _ hx
      cases hres
      cases hx
      exact h.view_of_cached hi rfl rfl rfl hc
    · cases hgo
      exact h.goes hi .missed rfl rfl (fun _ => hok.owning rfl) (fun _ => hok.locking rfl)
        (fun _ he => nomatch he) nofun nofun
        (fun _ => Or.inl rfl)
  | missed =>
    have hreturns : ((s.unlock p).finished i ⟨p, .load, x, .missed, since⟩ none).Inv :=
      h.finished hi (unlock_keeps (hok.locking rfl)) (fun _ hr => nomatch hr) nofun
    unfold goOn at hgo
    dsimp only at hgo
    split at hgo
    · cases hgo
      exact hreturns
    · split at hgo
      · cases hgo
        exact hreturns
      · rename_i e hview
        cases hgo
        refine h.goes hi (.holds e) rfl rfl (fun _ => hok.owning rfl) (fun _ => hok.locking rfl) ?_ nofun nofun
          (fun _ => Or.inl rfl)
        intro e' he'
        rw [← he']
        exact hview
  | holds e =>
    cases hgo
    have hview := hok.sees e rfl
    have hkept : answer = .failed → ∀ e', s.cache p = some e' → s.view x = some e' :=
      fun _ _ hc => h.view_of_cached hi rfl rfl rfl hc
    obtain ⟨hput, -⟩ := h.put hi rfl (hok.owning rfl) hview hapart hkept
    refine hput.finished (by rw [put_calls]; exact hi) ?_ ?_ nofun
    · rw [put_lock]
      exact unlock_keeps (hok.locking rfl)
    · intro e' hres _ hx
      cases hres
      cases hx
      rw [put_backing]
      exact hview
  | _ => cases hgo

/-- While the owner has the lock and no row is being created, no other call sees an entry. -/
theorem Inv.nobody_sees (h : s.Inv) (howner : s.owner = some p) (hlock : s.lock p = some i)
    (hcreate : ∀ (j : Nat) other, s.calls[j]? = some other → other.creating = false)
    (hne : j ≠ i) (hj : s.calls[j]? = some other) : other.sees = none := by
  cases hs : other.sees with
  | none => rfl
  | some e =>
    have hok := h.calls j other hj
    rcases CacheCall.creating_or_locking hs with hc | ⟨ho, hl⟩
    · rw [hcreate j other hj] at hc
      cases hc
    · have hproc := hok.owning ho
      rw [howner] at hproc
      have hlock' := hok.locking hl
      rw [← Option.some.inj hproc, hlock] at hlock'
      exact absurd (Option.some.inj hlock').symm hne

theorem Inv.commit_row (h : s.Inv) {expected tok : Nat}
    (hi : s.calls[i]? = some ⟨p, .commit expected state, none, .locked, since⟩)
    (hapart : s.apart ⟨p, .commit expected state, none, .locked, since⟩ = true) (howner : s.owner = some p)
    (hfree : s.rowFree none = true)
    (hcreate : ∀ (j : Nat) other, s.calls[j]? = some other → other.creating = false) :
    ((s.write none ⟨state, tok⟩).setStage i ⟨p, .commit expected state, none, .locked, since⟩ (.committed tok)).Inv := by
  have hok := h.calls i _ hi
  have hlock := hok.locking rfl
  refine h.write_row hi rfl hfree rfl (Or.inr hapart) ?_ ?_ (fun j other hne hj => h.nobody_sees howner hlock hcreate hne hj)
    (fun j other _ hj => hcreate j other hj) ?_
  · intro q e' hq
    rcases h.cached q e' hq with htouch | ⟨ho, -⟩
    · exact Or.inl htouch
    · rw [howner] at ho
      exact Or.inr ⟨howner.trans ho, (Option.some.inj ho).symm, rfl⟩
  · intro t u ht hr htouch hpend
    cases hc : s.cache u.proc with
    | none => rfl
    | some e' =>
      obtain ⟨-, ho⟩ := h.fresh t u ht hr htouch hpend e' hc
      rw [howner] at ho
      have htx : (none : Option Nat) = some t :=
        apart_tx hapart ht (Option.some.inj ho).symm (uses_of_touched (by rw [hr]; decide) htouch)
      cases htx
  · refine ⟨?_, ?_, fun _ => howner, fun _ => hlock, ?_, nofun, fun _ _ hop => nomatch hop⟩
    · exact hok.since_le.trans (by simp [setStage, replace])
    · intro t hx
      cases hx
    · intro e he
      exact he

theorem Inv.commit_tx (h : s.Inv) {expected tok : Nat}
    (hi : s.calls[i]? = some ⟨p, .commit expected state, some t, .locked, since⟩)
    (hapart : s.apart ⟨p, .commit expected state, some t, .locked, since⟩ = true) (howner : s.owner = some p)
    (hfree : s.rowFree (some t) = true)
    (hcreate : ∀ (j : Nat) other, s.calls[j]? = some other → other.creating = false) :
    ((s.write (some t) ⟨state, tok⟩).setStage i ⟨p, .commit expected state, some t, .locked, since⟩
      (.committed tok)).Inv := by
  have hok := h.calls i _ hi
  have hlock := hok.locking rfl
  obtain ⟨u, hu, hproc, hphase⟩ := hok.tx t rfl
  have heq : s.write (some t) ⟨state, tok⟩ = s.setTx t { u with written := some ⟨state, tok⟩ } := writeTx_eq hu _
  rw [heq]
  refine h.write_tx hi rfl hu hproc hapart hfree rfl (Or.inl howner) (Or.inl rfl)
    (fun j other hne hj _ => h.nobody_sees howner hlock hcreate hne hj) ?_ ?_
  · intro j other _ hj hc
    rw [hcreate j other hj] at hc
    cases hc
  · have hself := getElem?_set_txs hu { u with written := some ⟨state, tok⟩ }
    refine ⟨hok.since_le, ?_, fun _ => howner, fun _ => hlock, ?_, nofun, fun _ _ hop => nomatch hop⟩
    · intro t' hx
      cases hx
      exact ⟨_, hself, hproc, fun _ => hphase rfl⟩
    · intro e he
      rw [← he, view_some hself]
      rfl

theorem Inv.commit (h : s.Inv) {expected : Nat}
    (hi : s.calls[i]? = some ⟨p, .commit expected state, x, stage, since⟩)
    (hapart : s.apart ⟨p, .commit expected state, x, stage, since⟩ = true)
    (hcareful : s.careful ⟨p, .commit expected state, x, stage, since⟩ answer = true)
    (hgo : s.goOn i ⟨p, .commit expected state, x, stage, since⟩ answer = some s') : s'.Inv := by
  have hok := h.calls i _ hi
  cases stage with
  | called => exact h.lockFor hi hgo rfl rfl nofun (fun _ he => nomatch he) nofun rfl (Or.inr hapart)
  | locked =>
    have hcreate : ∀ (j : Nat) other, s.calls[j]? = some other → other.creating = false := by
      intro j other hj
      have hone := List.all_eq_true.mp hcareful other (List.mem_of_getElem? hj)
      simpa using hone
    unfold goOn at hgo
    dsimp only at hgo
    split at hgo
    · cases hgo
      exact h.finished hi (unlock_keeps (hok.locking rfl)) (fun _ hr => nomatch hr) nofun
    · split at hgo
      · cases hgo
      · rename_i hmay
        have hmay : s.owner = some p ∧ s.rowFree x = true := by simpa using hmay
        obtain ⟨howner, hfree⟩ := hmay
        split at hgo
        · cases hgo
          cases x with
          | none => exact h.commit_row hi hapart howner hfree hcreate
          | some t => exact h.commit_tx hi hapart howner hfree hcreate
        · cases hgo
          exact h.goes hi .conflicted rfl rfl nofun (fun _ => hok.locking rfl) (fun _ he => nomatch he) nofun nofun
            (fun _ => Or.inl rfl)
  | committed tok =>
    rcases acquire_cases hgo with ⟨-, hfree, rfl⟩ | ⟨hno, rfl⟩
    · exact (h.acquire hfree).goes hi (.writes tok) rfl rfl (fun _ => rfl) (fun _ => hok.locking rfl) hok.sees nofun
        (fun _ => rfl) (fun _ => Or.inl rfl)
    · refine h.finished hi (unlock_keeps (hok.locking rfl)) (fun _ hr => nomatch hr) ?_
      -- the answer was no grant, so nothing was cached
      intro _ e hc
      have hnone : (answer == .granted || (s.cache p).isNone) = true := hcareful
      have hc : s.cache p = some e := hc
      rw [hc, Option.isNone_some, Bool.or_false] at hnone
      exact absurd (by simpa using hnone) hno
  | conflicted =>
    cases hgo
    rcases s.evict_cases p answer with ⟨-, he⟩ | he
    · rw [he]
      exact h.finished hi (unlock_keeps (hok.locking rfl)) (fun _ hr => nomatch hr) nofun
    · rw [he]
      exact (h.drop p).finished hi (unlock_keeps (hok.locking rfl)) (fun _ hr => nomatch hr) nofun
  | writes tok =>
    cases hgo
    have hkept : answer = .failed → ∀ e', s.cache p = some e' → s.view x = some e' := by
      -- where the `Set` fails, nothing was cached
      intro hfail e' hc
      have hnone : (answer != .failed || (s.cache p).isNone) = true := hcareful
      rw [hc, hfail] at hnone
      cases hnone
    obtain ⟨hput, hclean⟩ := h.put hi rfl (hok.owning rfl) (hok.sees _ rfl) hapart hkept
    refine hput.finished (by rw [put_calls]; exact hi) ?_ (fun _ hr => nomatch hr) (fun _ => hclean)
    rw [put_lock]
    exact unlock_keeps (hok.locking rfl)
  | _ => cases hgo

theorem Inv.release (h : s.Inv) (hi : s.calls[i]? = some ⟨p, .release, x, stage, since⟩)
    (hapart : s.apart ⟨p, .release, x, stage, since⟩ = true)
    (hcareful : s.careful ⟨p, .release, x, stage, since⟩ answer = true)
    (hgo : s.goOn i ⟨p, .release, x, stage, since⟩ answer = some s') : s'.Inv := by
  cases stage with
  | called =>
    cases hgo
    have hmove : ∀ {s₁ : Caching}, s₁.Inv → s₁.calls = s.calls → s₁.txs = s.txs →
        (s₁.setStage i ⟨p, .release, x, .called, since⟩ .evicted).Inv := by
      intro s₁ h₁ hcalls htxs
      have hi₁ := hi
      rw [← hcalls] at hi₁
      refine h₁.goes hi₁ .evicted rfl rfl nofun nofun (fun _ he => nomatch he) nofun nofun (fun _ => Or.inr ?_)
      unfold Caching.apart at hapart ⊢
      rw [hcalls, htxs]
      exact hapart
    rcases s.evict_cases p answer with ⟨-, he⟩ | he
    · rw [he]
      exact hmove h rfl rfl
    · rw [he]
      exact hmove (h.drop p) rfl rfl
  | evicted =>
    obtain ⟨hboth, htxs⟩ := Bool.and_eq_true_iff.mp hcareful
    obtain ⟨hcache, hcalls⟩ := Bool.and_eq_true_iff.mp hboth
    unfold goOn at hgo
    dsimp only at hgo
    split at hgo
    · cases hgo
      exact h.finished hi (fun _ _ _ hl => hl) (fun _ hr => nomatch hr) nofun
    · cases hgo
      have hgone := h.relinquish (p := p) (Option.isNone_iff_eq_none.mp hcache) ?_ ?_
      · exact hgone.finished hi (fun _ _ _ hl => hl) (fun _ hr => nomatch hr) nofun
      · intro j other hj hproc
        cases ho : other.owning with
        | false => rfl
        | true =>
          have hone := List.all_eq_true.mp hcalls other (List.mem_of_getElem? hj)
          rw [CacheCall.underWay_of_owning ho] at hone
          have hrel : other.isRelease = true := by simpa [hproc] using hone
          unfold CacheCall.isRelease at hrel
          unfold CacheCall.owning at ho
          split at hrel <;> simp_all
      · intro t u hu hproc
        have hone := List.all_eq_true.mp htxs u (List.mem_of_getElem? hu)
        simpa [hproc] using hone
  | _ => cases hgo

end Calls

/-! ### Transactions -/

section Transactions

/-- The calls of the transaction have returned. -/
def Quiet (s : Caching) (t : Nat) : Prop :=
  ∀ (j : Nat) other, s.calls[j]? = some other → other.tx = some t → other.stage.isReturned = true

theorem Quiet.not_underWay (h : s.Quiet t) (hj : s.calls[j]? = some other)
    (hx : other.tx = some t) (hway : other.underWay = true) : False := by
  have hret := CacheCall.not_returned_of_underWay hway
  rw [h j other hj hx] at hret
  cases hret

theorem Quiet.not_pending (h : s.Quiet t) {p : Nat} : ¬ s.Pending p (some t) := by
  rintro ⟨j, other, hj, -, hx, hw⟩
  exact h.not_underWay hj hx (CacheCall.underWay_of_owning (CacheCall.owning_of_writing hw))

/-- The transactions after one of them has come to an end. -/
theorem getElem?_ended (hu : s.txs[t]? = some u) {t' : Nat} {u' : CacheTx}
    (h : (s.txs.set t { u with phase := phase })[t']? = some u') (hr : u'.phase = .running) (hphase : phase ≠ .running) :
    t' ≠ t ∧ s.txs[t']? = some u' := by
  rcases getElem?_set_cases h with ⟨rfl, rfl⟩ | hold
  · exact absurd hr hphase
  · exact hold

theorem uses_ended (hrunning : u.phase ≠ .over) (hu : s.txs[t]? = some u) {t' : Nat} {u' : CacheTx}
    (h : (s.txs.set t { u with phase := phase })[t']? = some u') (huses : u'.uses = true) :
    ∃ v : CacheTx, s.txs[t']? = some v ∧ v.proc = u'.proc ∧ v.uses = true := by
  rcases getElem?_set_cases h with ⟨rfl, rfl⟩ | ⟨-, hold⟩
  · refine ⟨u, hu, rfl, ?_⟩
    unfold CacheTx.uses at huses ⊢
    obtain ⟨-, hused⟩ := Bool.and_eq_true_iff.mp huses
    exact Bool.and_eq_true_iff.mpr ⟨by simpa using hrunning, hused⟩
  · exact ⟨u', hold, rfl, huses⟩

theorem touched_ended (hu : s.txs[t]? = some u) {p : Nat} (ht : s.TouchedBy p)
    (hne : phase ≠ .over ∨ u.proc ≠ p ∨ u.touched = false) :
    ∃ (t' : Nat) (u' : CacheTx), (s.txs.set t { u with phase := phase })[t']? = some u' ∧ u'.proc = p ∧
      u'.phase ≠ .over ∧ u'.touched = true := by
  obtain ⟨t', u', hu', hproc, hover, htouch⟩ := ht
  by_cases htt : t' = t
  · subst htt
    rw [hu] at hu'
    cases hu'
    rcases hne with hph | hp | hno
    · exact ⟨t', _, getElem?_set_txs hu _, hproc, hph, htouch⟩
    · exact absurd hproc hp
    · rw [hno] at htouch
      cases htouch
  · exact ⟨t', u', (List.getElem?_set_ne (Ne.symm htt)).trans hu', hproc, hover, htouch⟩

/-- A transaction ends and the row stays. -/
theorem Inv.ended (h : s.Inv) (hu : s.txs[t]? = some u) (hover : u.phase ≠ .over) (hquiet : s.Quiet t)
    (hphase : phase ≠ .running)
    (hclean : phase = .over → ∀ e, s.cache u.proc = some e → u.touched = true → s.owner = some u.proc ∧ s.backing = some e) :
    (s.setTx t { u with phase := phase }).Inv := by
  refine ⟨?_, ?_, ?_, ?_, ?_, ?_, ?_, ?_, ?_⟩
  · intro p e hc
    by_cases hmine : phase = .over ∧ u.proc = p ∧ u.touched = true
    · obtain ⟨hph, rfl, htouch⟩ := hmine
      obtain ⟨ho, hb⟩ := hclean hph e hc htouch
      exact Or.inr ⟨ho, fun _ => hb⟩
    · rcases h.cached p e hc with ht | hown
      · refine Or.inl (touched_ended hu ht ?_)
        by_cases hph : phase = .over
        · by_cases hp : u.proc = p
          · exact Or.inr (Or.inr (by simpa using fun htouch => hmine ⟨hph, hp, htouch⟩))
          · exact Or.inr (Or.inl hp)
        · exact Or.inl hph
      · exact Or.inr hown
  · intro t' u' hu' hr hw
    exact h.held t' u' (getElem?_ended hu hu' hr hphase).2 hr hw
  · intro t' u' hu' hr htouch hpend e he
    obtain ⟨hne, hold⟩ := getElem?_ended hu hu' hr hphase
    obtain ⟨hv, ho⟩ := h.fresh t' u' hold hr htouch hpend e he
    exact ⟨(view_set_ne hne).trans hv, ho⟩
  · intro t' u' hu' hr hw htouch hpend
    exact h.unseen t' u' (getElem?_ended hu hu' hr hphase).2 hr hw htouch hpend
  · intro t1 u1 t2 u2 ht1 ht2 hp huses1 huses2
    obtain ⟨v1, hv1, hp1, hvuses1⟩ := uses_ended hover hu ht1 huses1
    obtain ⟨v2, hv2, hp2, hvuses2⟩ := uses_ended hover hu ht2 huses2
    exact h.apart t1 v1 t2 v2 hv1 hv2 (hp1.trans (hp.trans hp2.symm)) hvuses1 hvuses2
  · intro t1 u1 t2 u2 ht1 ht2 hr1 hr2 hw1 hw2
    exact h.row t1 u1 t2 u2 (getElem?_ended hu ht1 hr1 hphase).2 (getElem?_ended hu ht2 hr2 hphase).2 hr1 hr2 hw1 hw2
  · intro t' u' j other hu' hj huses hp hway
    obtain ⟨v, hv, hvp, hvuses⟩ := uses_ended hover hu hu' huses
    exact h.alone t' v j other hv hj hvuses (hp.trans hvp.symm) hway
  · intro t' u' j other hu' hj hr hw hc
    exact h.uncreated t' u' j other (getElem?_ended hu hu' hr hphase).2 hj hr hw hc
  · intro j other hj
    have hok := h.calls j other hj
    refine hok.frame ⟨[], (List.append_nil _).symm⟩ ?_ (fun _ ho => ho) (fun _ hl => hl) ?_ ?_
    · exact tx_set hu rfl (fun hx hret => nomatch (hquiet j other hj hx).symm.trans hret)
    · intro e _ he
      have hsame := view_set_same (v := { u with phase := phase }) (x := other.tx) hu rfl
      exact hsame.trans he
    · intro _ hrow
      have hsame := row_set_same (v := { u with phase := phase }) (x := other.tx) hu rfl
      exact (congrArg Option.isSome hsame).trans hrow

/-- A transaction ends and its write takes the place of the row. -/
theorem Inv.ended_with (h : s.Inv) (hu : s.txs[t]? = some u) (hrunning : u.phase = .running) (hquiet : s.Quiet t)
    (hphase : phase ≠ .running) (hw : u.written = some e) :
    ((s.setTx t { u with phase := phase }).replace e).Inv := by
  have hsome : u.written.isSome = true := by rw [hw]; rfl
  have hover : u.phase ≠ .over := by rw [hrunning]; decide
  have hheld := h.held t u hu hrunning hsome
  -- an entry of the process is the one it wrote, and the process owns the instance
  have hmine : ∀ e', s.cache u.proc = some e' → u.touched = true ∧ e' = e ∧ s.owner = some u.proc := by
    intro e' hc
    cases htouch : u.touched with
    | false =>
      rw [h.unseen t u hu hrunning hsome htouch hquiet.not_pending] at hc
      cases hc
    | true =>
      obtain ⟨hv, ho⟩ := h.fresh t u hu hrunning htouch hquiet.not_pending e' hc
      rw [view_some hu, hw] at hv
      exact ⟨rfl, (Option.some.inj hv).symm, ho⟩
  -- no other call sees an entry
  have hblind : ∀ (j : Nat) other, s.calls[j]? = some other → other.sees = none := by
    intro j other hj
    cases hs : other.sees with
    | none => rfl
    | some e' =>
      exfalso
      have hok := h.calls j other hj
      have hway := CacheCall.underWay_of_sees hs
      have hnot : other.tx ≠ some t := fun hx => hquiet.not_underWay hj hx hway
      rcases CacheCall.creating_or_locking hs with hc | ⟨ho, -⟩
      · exact hnot (h.uncreated t u j other hu hj hrunning hsome hc)
      · rcases hheld with howner | hb
        · have hproc := (hok.owning ho).symm.trans howner
          exact hnot (h.alone t u j other hu hj (uses_of_written hrunning hsome) (Option.some.inj hproc) hway)
        · obtain ⟨t', u', hx', hu', hr', hw'⟩ := h.writer_of_sees hb hj (Or.inl ⟨e', hs⟩)
          rw [h.row t u t' u' hu hu' hrunning hr' hsome hw'] at hnot
          exact hnot hx'
  refine ⟨?_, ?_, ?_, ?_, ?_, ?_, ?_, ?_, ?_⟩
  · intro p e' hc
    by_cases hp : u.proc = p
    · subst hp
      obtain ⟨htouch, rfl, ho⟩ := hmine e' hc
      exact Or.inr ⟨ho, fun _ => rfl⟩
    · rcases h.cached p e' hc with ht | ⟨ho, hback⟩
      · exact Or.inl (touched_ended hu ht (Or.inr (Or.inl hp)))
      · exfalso
        rcases hheld with howner | hb
        · exact hp (Option.some.inj (howner.symm.trans ho))
        · exact nomatch hb.symm.trans (hback (h.not_pending hb))
  · intro t' u' hu' hr hw'
    obtain ⟨hne, hold⟩ := getElem?_ended hu hu' hr hphase
    exact absurd (h.row t u t' u' hu hold hrunning hr hsome hw') (Ne.symm hne)
  · intro t' u' hu' hr htouch hpend e' he'
    exfalso
    obtain ⟨hne, hold⟩ := getElem?_ended hu hu' hr hphase
    obtain ⟨hv, ho⟩ := h.fresh t' u' hold hr htouch hpend e' he'
    rw [view_some hold] at hv
    cases hw' : u'.written with
    | some e1 => exact hne (h.row t' u' t u hold hu hr hrunning (by rw [hw']; rfl) hsome)
    | none =>
      rw [hw'] at hv
      rcases hheld with howner | hb
      · have hproc := howner.symm.trans ho
        exact hne (h.apart t' u' t u hold hu (Option.some.inj hproc).symm (uses_of_touched (by rw [hr]; decide) htouch)
          (uses_of_written hrunning hsome))
      · rw [hb] at hv
        cases hv
  · intro t' u' hu' hr hw'
    obtain ⟨hne, hold⟩ := getElem?_ended hu hu' hr hphase
    exact absurd (h.row t u t' u' hu hold hrunning hr hsome hw') (Ne.symm hne)
  · intro t1 u1 t2 u2 ht1 ht2 hp huses1 huses2
    obtain ⟨v1, hv1, hp1, hvuses1⟩ := uses_ended hover hu ht1 huses1
    obtain ⟨v2, hv2, hp2, hvuses2⟩ := uses_ended hover hu ht2 huses2
    exact h.apart t1 v1 t2 v2 hv1 hv2 (hp1.trans (hp.trans hp2.symm)) hvuses1 hvuses2
  · intro t1 u1 t2 u2 ht1 ht2 hr1 hr2 hw1 hw2
    exact h.row t1 u1 t2 u2 (getElem?_ended hu ht1 hr1 hphase).2 (getElem?_ended hu ht2 hr2 hphase).2 hr1 hr2 hw1 hw2
  · intro t' u' j other hu' hj huses hp hway
    obtain ⟨v, hv, hvp, hvuses⟩ := uses_ended hover hu hu' huses
    exact h.alone t' v j other hv hj hvuses (hp.trans hvp.symm) hway
  · intro t' u' j other hu' hj hr hw' hc
    exact h.uncreated t' u' j other (getElem?_ended hu hu' hr hphase).2 hj hr hw' hc
  · intro j other hj
    refine (h.calls j other hj).frame ⟨[some e], rfl⟩ ?_ (fun _ ho => ho) (fun _ hl => hl) ?_ ?_
    · exact tx_set hu rfl (fun hx hret => nomatch (hquiet j other hj hx).symm.trans hret)
    · intro e' hs
      rw [hblind j other hj] at hs
      cases hs
    · intro hc _
      have hx := h.uncreated t u j other hu hj hrunning hsome hc
      exact (hquiet.not_underWay hj hx (CacheCall.underWay_of_creating hc)).elim

end Transactions

/-! ## Steps and runs -/

theorem getElem?_concat_cases {α : Type} {l : List α} {a b : α} (h : (l ++ [a])[j]? = some b) :
    l[j]? = some b ∨ (j = l.length ∧ b = a) := by
  rcases Nat.lt_or_ge j l.length with hlt | hge
  · rw [List.getElem?_append_left hlt] at h
    exact Or.inl h
  · rw [List.getElem?_append_right hge] at h
    cases hk : j - l.length with
    | zero =>
      rw [hk] at h
      exact Or.inr ⟨by omega, (Option.some.inj h).symm⟩
    | succ k =>
      rw [hk] at h
      cases h

theorem getElem?_concat_old {α : Type} {l : List α} {a b : α} (h : l[j]? = some b) : (l ++ [a])[j]? = some b := by
  obtain ⟨hlt, -⟩ := List.getElem?_eq_some_iff.mp h
  rw [List.getElem?_append_left hlt]
  exact h

/-- A new call has done nothing. -/
theorem Inv.called (h : s.Inv) {p : Nat} {op : CacheOp} {x : Option Nat}
    (hx : ∀ t, x = some t → ∃ u : CacheTx, s.txs[t]? = some u ∧ u.proc = p ∧ u.phase = .running) :
    ({ s with calls := s.calls ++ [{ proc := p, op := op, tx := x, since := s.past.length }] } : Caching).Inv := by
  have hidle : ({ proc := p, op := op, tx := x, since := s.past.length } : CacheCall).owning = false ∧
      ({ proc := p, op := op, tx := x, since := s.past.length } : CacheCall).locking = false ∧
      ({ proc := p, op := op, tx := x, since := s.past.length } : CacheCall).sees = none ∧
      ({ proc := p, op := op, tx := x, since := s.past.length } : CacheCall).creating = false := by
    cases op <;> exact ⟨rfl, rfl, rfl, rfl⟩
  obtain ⟨howning, hlocking, hsees, hcreating⟩ := hidle
  have hpending : ∀ {q y}, s.Pending q y →
      ({ s with calls := s.calls ++ [{ proc := p, op := op, tx := x, since := s.past.length }] } : Caching).Pending q y := by
    rintro q y ⟨j, other, hj, hrest⟩
    exact ⟨j, other, getElem?_concat_old hj, hrest⟩
  refine ⟨?_, h.held, ?_, ?_, h.apart, h.row, ?_, ?_, ?_⟩
  · intro q e hc
    rcases h.cached q e hc with ht | ⟨ho, hb⟩
    · exact Or.inl ht
    · exact Or.inr ⟨ho, fun hno => hb (fun hp => hno (hpending hp))⟩
  · intro t u hu hr htouch hno e he
    exact h.fresh t u hu hr htouch (fun hp => hno (hpending hp)) e he
  · intro t u hu hr hw htouch hno
    exact h.unseen t u hu hr hw htouch (fun hp => hno (hpending hp))
  · intro t u j other hu hj huses hp hway
    rcases getElem?_concat_cases hj with hold | ⟨-, rfl⟩
    · exact h.alone t u j other hu hold huses hp hway
    · cases hway
  · intro t u j other hu hj hr hw hc
    rcases getElem?_concat_cases hj with hold | ⟨-, rfl⟩
    · exact h.uncreated t u j other hu hold hr hw hc
    · exact nomatch hcreating.symm.trans hc
  · intro j other hj
    rcases getElem?_concat_cases hj with hold | ⟨-, rfl⟩
    · exact (h.calls j other hold).frame_rows ⟨rfl, rfl, rfl⟩ (fun _ ho => ho) (fun _ hl => hl)
    · refine ⟨Nat.le_refl _, ?_, fun ho => (nomatch howning.symm.trans ho), fun hl => (nomatch hlocking.symm.trans hl),
        fun e he => (nomatch hsees.symm.trans he), fun hc => (nomatch hcreating.symm.trans hc), fun _ _ _ hs => (nomatch hs)⟩
      intro t ht
      obtain ⟨u, hu, hproc, hrun⟩ := hx t ht
      exact ⟨u, hu, hproc, fun _ => hrun⟩

/-- A new transaction has used nothing. -/
theorem Inv.begun (h : s.Inv) (p : Nat) : ({ s with txs := s.txs ++ [{ proc := p }] } : Caching).Inv := by
  have hold : ∀ {t' : Nat} {u' : CacheTx}, (s.txs ++ [{ proc := p }])[t']? = some u' →
      u'.written.isSome = true ∨ u'.touched = true → s.txs[t']? = some u' := by
    intro t' u' hu' hused
    rcases getElem?_concat_cases hu' with hin | ⟨-, rfl⟩
    · exact hin
    · rcases hused with hw | ht
      · cases hw
      · cases ht
  have hused : ∀ {u' : CacheTx}, u'.uses = true → u'.written.isSome = true ∨ u'.touched = true := by
    intro u' huses
    unfold CacheTx.uses at huses
    simpa using (Bool.and_eq_true_iff.mp huses).2
  have hview : ∀ {t' : Nat} {u' : CacheTx}, s.txs[t']? = some u' →
      ({ s with txs := s.txs ++ [{ proc := p }] } : Caching).view (some t') = s.view (some t') := by
    intro t' u' hu'
    rw [view_some hu', @view_some { s with txs := s.txs ++ [{ proc := p }] } t' u' (getElem?_concat_old hu')]
  refine ⟨?_, ?_, ?_, ?_, ?_, ?_, ?_, ?_, ?_⟩
  · intro q e hc
    rcases h.cached q e hc with ⟨t', u', hu', hrest⟩ | hown
    · exact Or.inl ⟨t', u', getElem?_concat_old hu', hrest⟩
    · exact Or.inr hown
  · intro t' u' hu' hr hw
    exact h.held t' u' (hold hu' (Or.inl hw)) hr hw
  · intro t' u' hu' hr htouch hpend e he
    have hin := hold hu' (Or.inr htouch)
    obtain ⟨hv, ho⟩ := h.fresh t' u' hin hr htouch hpend e he
    exact ⟨(hview hin).trans hv, ho⟩
  · intro t' u' hu' hr hw htouch hpend
    exact h.unseen t' u' (hold hu' (Or.inl hw)) hr hw htouch hpend
  · intro t1 u1 t2 u2 ht1 ht2 hp huses1 huses2
    exact h.apart t1 u1 t2 u2 (hold ht1 (hused huses1)) (hold ht2 (hused huses2)) hp huses1 huses2
  · intro t1 u1 t2 u2 ht1 ht2 hr1 hr2 hw1 hw2
    exact h.row t1 u1 t2 u2 (hold ht1 (Or.inl hw1)) (hold ht2 (Or.inl hw2)) hr1 hr2 hw1 hw2
  · intro t' u' j other hu' hj huses hp hway
    exact h.alone t' u' j other (hold hu' (hused huses)) hj huses hp hway
  · intro t' u' j other hu' hj hr hw hc
    exact h.uncreated t' u' j other (hold hu' (Or.inl hw)) hj hr hw hc
  · intro j other hj
    have hok := h.calls j other hj
    refine hok.frame ⟨[], (List.append_nil _).symm⟩ (fun t' u' _ hu' => ⟨u', getElem?_concat_old hu', rfl, fun _ hp => hp⟩)
      (fun _ ho => ho) (fun _ hl => hl) ?_ ?_
    · intro e _ he
      cases hx : other.tx with
      | none =>
        rw [hx] at he
        exact he
      | some t' =>
        obtain ⟨u', hu', -⟩ := hok.tx t' hx
        rw [hx] at he
        exact (hview hu').trans he
    · intro _ hrow
      cases hx : other.tx with
      | none =>
        rw [hx] at hrow
        exact hrow
      | some t' =>
        obtain ⟨u', hu', -⟩ := hok.tx t' hx
        rw [hx, row_some hu'] at hrow
        rw [@row_some { s with txs := s.txs ++ [{ proc := p }] } t' u' (getElem?_concat_old hu')]
        exact hrow

theorem Inv.goOn (h : s.Inv) (hi : s.calls[i]? = some call) {answer : CacheAnswer} (hapart : s.apart call = true)
    (hcareful : s.careful call answer = true) (hgo : s.goOn i call answer = some s') : s'.Inv := by
  obtain ⟨p, op, x, stage, since⟩ := call
  cases op with
  | create state => exact h.create hi hapart hgo
  | load => exact h.load hi hapart hgo
  | commit expected state => exact h.commit hi hapart hcareful hgo
  | release => exact h.release hi hapart hcareful hgo

theorem Inv.finish (h : s.Inv) {took reported : Bool} (hstep : s.step (.finish t took reported) = some s') : s'.Inv := by
  unfold step at hstep
  dsimp only at hstep
  split at hstep
  · cases hstep
  · rename_i u hu
    split at hstep
    · rename_i hmay
      obtain ⟨hrunning, hall, hreported⟩ := hmay
      have hquiet : s.Quiet t := by
        intro j other hj hx
        have hone := List.all_eq_true.mp hall other (List.mem_of_getElem? hj)
        simpa [hx] using hone
      have hphase : (if reported = true then CacheTxPhase.over else .failed) ≠ .running := by
        cases reported <;> decide
      have hover : u.phase ≠ .over := by rw [hrunning]; decide
      split at hstep
      · rename_i e hw
        cases hstep
        split
        · exact h.ended_with hu hrunning hquiet hphase hw
        · rename_i htook
          refine h.ended hu hover hquiet hphase (fun hov => ?_)
          -- a transaction that was not committed is not reported as such
          cases reported with
          | true => exact absurd (hreported rfl) htook
          | false => cases hov
      · rename_i hw
        cases hstep
        refine h.ended hu hover hquiet hphase (fun _ e hc htouch => ?_)
        obtain ⟨hv, ho⟩ := h.fresh t u hu hrunning htouch hquiet.not_pending e hc
        rw [view_some hu, hw] at hv
        exact ⟨ho, hv⟩
    · cases hstep

theorem Inv.evictTx (h : s.Inv) {answer : CacheAnswer} (horderly : s.orderly (.evict t answer) = true)
    (hstep : s.step (.evict t answer) = some s') : s'.Inv := by
  unfold orderly at horderly
  unfold step at hstep
  dsimp only at horderly hstep
  split at hstep
  · cases hstep
  · rename_i u hu
    split at hstep
    · rename_i hfailed
      cases hstep
      have hover : u.phase ≠ .over := by rw [hfailed]; decide
      have hquiet : s.Quiet t := by
        intro j other hj hx
        obtain ⟨v, hv, -, hphase⟩ := (h.calls j other hj).tx t hx
        rw [hu] at hv
        cases hv
        by_contra hret
        rw [hphase (by simpa using hret)] at hfailed
        cases hfailed
      rw [hu] at horderly
      by_cases htouch : u.touched = true
      · rw [if_pos htouch]
        rcases s.evict_cases u.proc answer with ⟨hfail, he⟩ | he
        · rw [he]
          -- the `Delete` failed, and there was no entry
          refine h.ended hu hover hquiet ?_ (fun _ e hc _ => ?_)
          · decide
          · dsimp only at horderly
            rw [hfail, htouch, hc] at horderly
            cases horderly
        · rw [he]
          refine (h.drop u.proc).ended hu hover hquiet ?_ (fun _ e hc => ?_)
          · decide
          · have hc : putAt s.cache u.proc none u.proc = some e := hc
            rw [putAt_self] at hc
            cases hc
      · rw [if_neg htouch]
        refine h.ended hu hover hquiet ?_ (fun _ e _ ht => absurd ht htouch)
        decide
    · cases hstep

theorem Inv.step (h : s.Inv) {choice : CacheChoice} (horderly : s.orderly choice = true) (hstep : s.step choice = some s') :
    s'.Inv := by
  cases choice with
  | call p op x =>
    unfold Caching.step at hstep
    cases x with
    | none =>
      cases hstep
      exact h.called nofun
    | some t =>
      dsimp only at hstep
      split at hstep
      · cases hstep
      · rename_i u hu
        split at hstep
        · rename_i hmay
          cases hstep
          refine h.called (fun t' ht' => ?_)
          cases ht'
          exact ⟨u, hu, hmay⟩
        · cases hstep
  | goOn i answer =>
    unfold Caching.step at hstep
    unfold orderly at horderly
    dsimp only at hstep horderly
    split at hstep
    · cases hstep
    · rename_i call hi
      rw [hi] at horderly
      obtain ⟨hapart, hcareful⟩ := Bool.and_eq_true_iff.mp horderly
      exact h.goOn hi hapart hcareful hstep
  | begin p =>
    cases hstep
    exact h.begun p
  | finish t took reported => exact h.finish hstep
  | evict t answer => exact h.evictTx horderly hstep
  | expire p =>
    cases hstep
    exact h.drop p

end Caching

end Wrkflw
