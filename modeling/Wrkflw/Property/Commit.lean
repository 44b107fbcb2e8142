import Wrkflw.Store.Transaction

/-!
# The commit of a step is all or nothing

Every write of a step runs in the transaction of `RunInTx`. A participant that fails marks it, and its error comes back
through `commitFn`; the owner commits only a run that came to its end unmarked. So the tables have the whole step or none of
it, and what follows a commit follows a commit that was reported.

* `Tx.run_marked` : a mark is never taken back;
* `SqlRows.Stores` : the tables after a step, table by table;
* `commitFn_stores` : a run of `commitFn` that comes to its end has made every write;
* `step_commits_whole_or_not` : the result.
-/

namespace Wrkflw

open Library

/-! ## Runs -/

section Run
variable {σ α β : Type} {faults : Faults} {h h' : Handle σ}

theorem Tx.run_bind (x : Tx σ α) (f : α → Tx σ β) (h : Handle σ) :
    (x.bind f).run faults h = (f (x.run faults h).1).run faults (x.run faults h).2 := by
  induction x generalizing h with
  | ret a => rfl
  | exec stmt k ih => exact ih _ _
  | rollback k ih => exact ih _

theorem Handle.send_rollbackOnly (stmt : σ → Except String (σ × Nat)) :
    (h.send faults stmt).2.rollbackOnly = h.rollbackOnly := by
  unfold Handle.send
  split
  · rfl
  · split <;> rfl

/-- A mark is never taken back. -/
theorem Tx.run_marked (x : Tx σ α) (hmark : h.rollbackOnly = true) : (x.run faults h).2.rollbackOnly = true := by
  induction x generalizing h with
  | ret a => exact hmark
  | exec stmt k ih => exact ih _ ((Handle.send_rollbackOnly stmt).trans hmark)
  | rollback k ih => exact ih rfl

/-- A participant that rolls back leaves its mark. -/
theorem Tx.marked_of_rollsBack (x : Tx σ α) (hroll : x.rollsBack faults h = true) :
    (x.run faults h).2.rollbackOnly = true := by
  induction x generalizing h with
  | ret a => cases hroll
  | exec stmt k ih => exact ih _ hroll
  | rollback k ih => exact Tx.run_marked k rfl

/-- Success of `RunInTx` means that the transaction was committed with no participant rolled back. -/
theorem runInTx_ok {mapConflict : String → String} {fn : Tx σ (Except String α)} {db db' : σ} {a : α}
    (hrun : runInTx faults mapConflict fn db = (.ok a, db')) :
    ∃ h, fn.run faults { work := db } = (.ok a, h) ∧ h.rollbackOnly = false ∧ db' = h.work := by
  unfold runInTx at hrun
  split at hrun
  · cases hrun
  · split at hrun
    · cases hrun
    · rename_i b h hfn
      split at hrun
      · cases hrun
      · rename_i hmark
        split at hrun
        · cases hrun
          exact ⟨h, hfn, by simpa using hmark, rfl⟩
        · cases hrun

/-- An error of `RunInTx` leaves the tables as they were, but for a commit that took place and was reported as failed. -/
theorem runInTx_error {mapConflict : String → String} {fn : Tx σ (Except String α)} {db db' : σ} {e : String}
    (hrun : runInTx faults mapConflict fn db = (.error e, db')) :
    db' = db ∨ ∃ a h, fn.run faults { work := db } = (.ok a, h) ∧ h.rollbackOnly = false ∧ db' = h.work := by
  unfold runInTx at hrun
  split at hrun
  · cases hrun
    exact Or.inl rfl
  · split at hrun
    · cases hrun
      exact Or.inl rfl
    · rename_i b h hfn
      split at hrun
      · cases hrun
        exact Or.inl rfl
      · rename_i hmark
        split at hrun
        · cases hrun
        · rename_i err took _
          cases hrun
          cases took with
          | false => exact Or.inl rfl
          | true => exact Or.inr ⟨b, h, hfn, by simpa using hmark, rfl⟩

/-- A run in which a participant rolled back fails, whatever the function made of it. -/
theorem runInTx_rolledBack {mapConflict : String → String} {fn : Tx σ (Except String α)} {db : σ}
    (hroll : fn.rollsBack faults { work := db } = true) : ∃ e, runInTx faults mapConflict fn db = (.error e, db) := by
  have hmark := Tx.marked_of_rollsBack fn hroll
  unfold runInTx
  split
  · exact ⟨_, rfl⟩
  · split
    · exact ⟨_, rfl⟩
    · rename_i a h hfn
      rw [hfn] at hmark
      rw [if_pos hmark]
      exact ⟨_, rfl⟩

end Run

/-! ## Steps of a participant -/

section Steps
variable {α β : Type} {faults : Faults} {h h' : Handle SqlRows}

theorem TxStep.bind_ok {x : TxStep α} {f : α → TxStep β} {b : β} (hrun : (x >>= f).run.run faults h = (.ok b, h')) :
    ∃ a h1, x.run.run faults h = (.ok a, h1) ∧ (f a).run.run faults h1 = (.ok b, h') := by
  have heq : (x >>= f).run = x.run.bind (ExceptT.bindCont f) := rfl
  rw [heq, Tx.run_bind] at hrun
  cases hx : x.run.run faults h with
  | mk r h1 =>
    rw [hx] at hrun
    cases r with
    | error e => cases hrun
    | ok a => exact ⟨a, h1, rfl, hrun⟩

theorem TxStep.pure_ok {a b : α} (hrun : (pure a : TxStep α).run.run faults h = (.ok b, h')) : b = a ∧ h' = h := by
  cases hrun
  exact ⟨rfl, rfl⟩

theorem joined_ok {body : TxStep α} {a : α} (hrun : (joined body).run.run faults h = (.ok a, h')) :
    body.run.run faults h = (.ok a, h') := by
  change (body.run.bind _).run faults h = _ at hrun
  rw [Tx.run_bind] at hrun
  cases hx : body.run.run faults h with
  | mk r h1 =>
    rw [hx] at hrun
    cases r with
    | error e => cases hrun
    | ok b => exact hrun

/-- A statement that went well has changed the tables. -/
theorem execStmt_ok {wrap : String → String} {stmt : SqlRows → Except String (SqlRows × Nat)} {n : Nat}
    (hrun : (execStmt wrap stmt).run.run faults h = (.ok n, h')) : stmt h.work = .ok (h'.work, n) := by
  change (Tx.exec stmt _).run faults h = _ at hrun
  unfold Tx.run Handle.send at hrun
  split at hrun
  · cases hrun
  · split at hrun
    · cases hrun
    · rename_i work m hstmt
      cases hrun
      exact hstmt

/-- A value that was computed before any statement. -/
theorem ret_ok {r : Except String α} {a : α} (hrun : (ExceptT.mk (.ret r) : TxStep α).run.run faults h = (.ok a, h')) :
    r = .ok a ∧ h' = h := by
  obtain ⟨hr, hh⟩ := Prod.mk.inj hrun
  exact ⟨hr, hh.symm⟩

theorem ok_of_mapError {r : Except String α} {f : String → String} {a : α} (hr : r.mapError f = .ok a) : r = .ok a := by
  cases r with
  | error e => cases hr
  | ok b => exact hr

end Steps

/-! ## The writes -/

/-- The call links after the end of a child. -/
def flippedLinks (childID : String) (rows : List CallLinkRow) : Option CallOutcome → List CallLinkRow
  | none => rows
  | some out => rows.map (fun row => if row.link.childInstanceID == childID then row.flip out else row)

/-- The call links after a step: a first step records its link, a later one flips that of a child it ends. -/
def callLinksAfter (create : Bool) (step : SqlStep) (now : Time) (rows : List CallLinkRow) : List CallLinkRow :=
  if create then rows ++ step.newCallLink.toList.map (fun link => { link := link, createdAt := now })
  else flippedLinks step.state.instanceID rows step.callOutcome

def timersAfter (writer : Bool) (arms : List JobSpec) (cancels : List (String × String)) (timers : List JobSpec) :
    List JobSpec :=
  if writer then cancels.foldl (fun timers key => deleteTimerRow key timers)
    (arms.foldl (fun timers spec => upsertTimerRow spec timers) timers)
  else timers

theorem timersAfter_nil (writer : Bool) (timers : List JobSpec) : timersAfter writer [] [] timers = timers := by
  cases writer <;> rfl

theorem timersAfter_both (writer : Bool) (arms : List JobSpec) (cancels : List (String × String)) (timers : List JobSpec) :
    timersAfter writer [] cancels (timersAfter writer arms [] timers) = timersAfter writer arms cancels timers := by
  cases writer <;> rfl

/-- The tables have every write of the step. -/
structure SqlRows.Stores (s : SqlStore) (create : Bool) (token : Nat) (step : SqlStep) (arms : List JobSpec)
    (cancels : List (String × String)) (version : Nat) (db db' : SqlRows) : Prop where
  version_eq : version = if create then 1 else token + 1
  snapshot : ∃ row, s.marshalSnapshot step.state = .ok row.snapshot ∧ row.version = version ∧ row.status = step.state.status ∧
    db'.instances = MemInstanceStore.put db.instances step.state.instanceID (some row)
  journal : ∃ data kind, marshalTrigger step.trigger = .ok (data, kind) ∧
    db'.journal = db.journal ++ [⟨step.state.instanceID, version, kind, data, step.trigger.occurredAt, s.now⟩]
  outbox : db'.outbox = writeOutbox db.outbox step.state.instanceID version step.events s.now
  callLinks : db'.callLinks = callLinksAfter create step s.now db.callLinks
  timers : db'.timers = timersAfter s.timerWriter arms cancels db.timers

section Writes
variable {s : SqlStore} {faults : Faults} {h h' : Handle SqlRows} {step : SqlStep} {u : Unit}

theorem writeJournal_ok {seq : Nat} (hrun : (s.writeJournal step seq).run.run faults h = (.ok u, h')) :
    ∃ data kind, marshalTrigger step.trigger = .ok (data, kind) ∧ h'.work = { h.work with
      journal := h.work.journal ++ [⟨step.state.instanceID, seq, kind, data, step.trigger.occurredAt, s.now⟩] } := by
  unfold SqlStore.writeJournal at hrun
  obtain ⟨p, h1, hret, hrest⟩ := TxStep.bind_ok hrun
  obtain ⟨data, kind⟩ := p
  obtain ⟨hmarshal, rfl⟩ := ret_ok hret
  obtain ⟨n, h2, hexec, hend⟩ := TxStep.bind_ok hrest
  obtain ⟨-, rfl⟩ := TxStep.pure_ok hend
  have hstmt := execStmt_ok hexec
  obtain ⟨hwork, -⟩ := Prod.mk.inj (Except.ok.inj hstmt)
  exact ⟨data, kind, ok_of_mapError hmarshal, hwork.symm⟩

theorem writeOutbox_ok {instanceID : String} {seq i : Nat} {events : List OutboxEvent}
    (hrun : (s.writeOutbox instanceID seq i events).run.run faults h = (.ok u, h')) :
    h'.work = { h.work with outbox := writeOutboxFrom h.work.outbox instanceID seq s.now i events } := by
  induction events generalizing i h with
  | nil =>
    obtain ⟨-, rfl⟩ := TxStep.pure_ok hrun
    rfl
  | cons ev events ih =>
    obtain ⟨n, h1, hexec, hrun⟩ := TxStep.bind_ok hrun
    obtain ⟨hwork, -⟩ := Prod.mk.inj (Except.ok.inj (execStmt_ok hexec))
    rw [ih hrun, ← hwork]
    rfl

theorem maybeNotify_ok {events : List OutboxEvent} (hrun : (s.maybeNotify events).run.run faults h = (.ok u, h')) :
    h'.work = h.work := by
  unfold SqlStore.maybeNotify at hrun
  split at hrun
  · obtain ⟨-, rfl⟩ := TxStep.pure_ok hrun
    rfl
  · obtain ⟨n, h1, hexec, hrun⟩ := TxStep.bind_ok hrun
    obtain ⟨-, rfl⟩ := TxStep.pure_ok hrun
    exact (Prod.mk.inj (Except.ok.inj (execStmt_ok hexec))).1.symm

theorem insertCallLink_ok {link : Option CallLink} (hrun : (s.insertCallLink link).run.run faults h = (.ok u, h')) :
    h'.work = { h.work with
      callLinks := h.work.callLinks ++ link.toList.map (fun link => { link := link, createdAt := s.now }) } := by
  cases link with
  | none =>
    obtain ⟨-, rfl⟩ := TxStep.pure_ok hrun
    rw [Option.toList_none, List.map_nil, List.append_nil]
  | some link =>
    obtain ⟨n, h1, hexec, hrun⟩ := TxStep.bind_ok hrun
    obtain ⟨-, rfl⟩ := TxStep.pure_ok hrun
    exact (Prod.mk.inj (Except.ok.inj (execStmt_ok hexec))).1.symm

theorem flipCallLink_ok {outcome : Option CallOutcome} {childID : String}
    (hrun : (s.flipCallLink childID outcome).run.run faults h = (.ok u, h')) :
    h'.work = { h.work with callLinks := flippedLinks childID h.work.callLinks outcome } := by
  cases outcome with
  | none =>
    obtain ⟨-, rfl⟩ := TxStep.pure_ok hrun
    rfl
  | some out =>
    obtain ⟨n, h1, hexec, hrun⟩ := TxStep.bind_ok hrun
    obtain ⟨-, rfl⟩ := TxStep.pure_ok hrun
    exact (Prod.mk.inj (Except.ok.inj (execStmt_ok hexec))).1.symm

theorem upsertJob_ok {spec : JobSpec} (hrun : (SqlStore.upsertJob spec).run.run faults h = (.ok u, h')) :
    h'.work = { h.work with timers := upsertTimerRow spec h.work.timers } := by
  obtain ⟨n, h1, hexec, hrun⟩ := TxStep.bind_ok (joined_ok hrun)
  obtain ⟨-, rfl⟩ := TxStep.pure_ok hrun
  exact (Prod.mk.inj (Except.ok.inj (execStmt_ok hexec))).1.symm

theorem deleteJob_ok {key : String × String} (hrun : (SqlStore.deleteJob key).run.run faults h = (.ok u, h')) :
    h'.work = { h.work with timers := deleteTimerRow key h.work.timers } := by
  obtain ⟨n, h1, hexec, hrun⟩ := TxStep.bind_ok (joined_ok hrun)
  obtain ⟨-, rfl⟩ := TxStep.pure_ok hrun
  exact (Prod.mk.inj (Except.ok.inj (execStmt_ok hexec))).1.symm

theorem saveJobs_ok {specs : List JobSpec} (hrun : (s.saveJobs specs).run.run faults h = (.ok u, h')) :
    h'.work = { h.work with timers := timersAfter s.timerWriter specs [] h.work.timers } := by
  induction specs generalizing h with
  | nil =>
    obtain ⟨-, rfl⟩ := TxStep.pure_ok hrun
    rw [timersAfter_nil]
  | cons spec specs ih =>
    unfold SqlStore.saveJobs at hrun
    cases hw : s.timerWriter with
    | false =>
      rw [hw, if_neg Bool.false_ne_true] at hrun
      rw [ih hrun, hw]
      rfl
    | true =>
      rw [hw, if_pos rfl] at hrun
      obtain ⟨v, h1, hjob, hrest⟩ := TxStep.bind_ok hrun
      rw [ih hrest, hw, upsertJob_ok hjob]
      rfl

theorem deleteJobs_ok {keys : List (String × String)} (hrun : (s.deleteJobs keys).run.run faults h = (.ok u, h')) :
    h'.work = { h.work with timers := timersAfter s.timerWriter [] keys h.work.timers } := by
  induction keys generalizing h with
  | nil =>
    obtain ⟨-, rfl⟩ := TxStep.pure_ok hrun
    rw [timersAfter_nil]
  | cons key keys ih =>
    unfold SqlStore.deleteJobs at hrun
    cases hw : s.timerWriter with
    | false =>
      rw [hw, if_neg Bool.false_ne_true] at hrun
      rw [ih hrun, hw]
      rfl
    | true =>
      rw [hw, if_pos rfl] at hrun
      obtain ⟨v, h1, hjob, hrest⟩ := TxStep.bind_ok hrun
      rw [ih hrest, hw, deleteJob_ok hjob]
      rfl

/-- What the writes of a step after its instance row come to, up to its link. -/
theorem rest_ok {seq n version : Nat} {link : TxStep Unit}
    (hrun : (do
      s.writeJournal step seq
      s.writeOutbox step.state.instanceID seq 0 step.events
      s.maybeNotify step.events
      link
      return n : TxStep Nat).run.run faults h = (.ok version, h')) :
    version = n ∧ ∃ data kind h1 v, marshalTrigger step.trigger = .ok (data, kind) ∧ h1.work = { h.work with
      journal := h.work.journal ++ [⟨step.state.instanceID, seq, kind, data, step.trigger.occurredAt, s.now⟩]
      outbox := writeOutbox h.work.outbox step.state.instanceID seq step.events s.now } ∧
      link.run.run faults h1 = (.ok v, h') := by
  obtain ⟨u1, h1, hjournal, hafter1⟩ := TxStep.bind_ok hrun
  obtain ⟨u2, h2, houtbox, hafter2⟩ := TxStep.bind_ok hafter1
  obtain ⟨u3, h3, hnotify, hafter3⟩ := TxStep.bind_ok hafter2
  obtain ⟨u4, h4, hlink, hend⟩ := TxStep.bind_ok hafter3
  obtain ⟨rfl, rfl⟩ := TxStep.pure_ok hend
  obtain ⟨data, kind, hmarshal, hwork⟩ := writeJournal_ok hjournal
  refine ⟨rfl, data, kind, h3, u4, hmarshal, ?_, hlink⟩
  rw [maybeNotify_ok hnotify, writeOutbox_ok houtbox, hwork]
  rfl

theorem create_stores {version : Nat} (hrun : (s.create step).run.run faults h = (.ok version, h')) :
    SqlRows.Stores s true 0 step [] [] version h.work h'.work := by
  obtain ⟨snapshot, h1, hret, hafter1⟩ := TxStep.bind_ok (joined_ok hrun)
  obtain ⟨hmarshal, rfl⟩ := ret_ok hret
  obtain ⟨n, h2, hinsert, hafter2⟩ := TxStep.bind_ok hafter1
  obtain ⟨rfl, data, kind, h3, v, htrigger, hwork, hlink⟩ := rest_ok hafter2
  have hinstance : h2.work = { h1.work with
      instances := MemInstanceStore.put h1.work.instances step.state.instanceID (some (s.firstRow step snapshot)) } := by
    have hstmt := execStmt_ok hinsert
    unfold insertInstance at hstmt
    split at hstmt
    · cases hstmt
    · exact (Prod.mk.inj (Except.ok.inj hstmt)).1.symm
  have hall := insertCallLink_ok hlink
  rw [hwork, hinstance] at hall
  rw [hall]
  exact ⟨rfl, ⟨s.firstRow step snapshot, ok_of_mapError hmarshal, rfl, rfl, rfl⟩, ⟨data, kind, htrigger, rfl⟩, rfl, rfl,
    (timersAfter_nil _ _).symm⟩

theorem commit_stores {expected version : Nat} (hrun : (s.commit expected step).run.run faults h = (.ok version, h')) :
    SqlRows.Stores s false expected step [] [] version h.work h'.work := by
  obtain ⟨snapshot, h1, hret, hafter1⟩ := TxStep.bind_ok (joined_ok hrun)
  obtain ⟨hmarshal, rfl⟩ := ret_ok hret
  obtain ⟨rows, h2, hupdate, hafter2⟩ := TxStep.bind_ok hafter1
  dsimp only at hafter2
  by_cases hrows : rows = 0
  · rw [if_pos hrows] at hafter2
    obtain ⟨u0, h0, hthrow, -⟩ := TxStep.bind_ok hafter2
    cases hthrow
  -- the update found the row at the expected version
  rw [if_neg hrows] at hafter2
  obtain ⟨rfl, data, kind, h3, v, htrigger, hwork, hlink⟩ := rest_ok hafter2
  have hinstance : ∃ row, row.snapshot = snapshot ∧ row.version = expected + 1 ∧ row.status = step.state.status ∧
      h2.work = { h1.work with
        instances := MemInstanceStore.put h1.work.instances step.state.instanceID (some row) } := by
    have hstmt := execStmt_ok hupdate
    unfold updateInstance at hstmt
    split at hstmt
    · obtain ⟨-, hzero⟩ := Prod.mk.inj (Except.ok.inj hstmt)
      exact absurd hzero.symm hrows
    · rename_i row hrow
      split at hstmt
      · rename_i hversion
        obtain ⟨hwork, -⟩ := Prod.mk.inj (Except.ok.inj hstmt)
        exact ⟨_, rfl, by rw [← hversion], rfl, hwork.symm⟩
      · obtain ⟨-, hzero⟩ := Prod.mk.inj (Except.ok.inj hstmt)
        exact absurd hzero.symm hrows
  obtain ⟨row, rfl, hversion, hstatus, hinstance⟩ := hinstance
  have hall := flipCallLink_ok hlink
  rw [hwork, hinstance] at hall
  rw [hall]
  exact ⟨rfl, ⟨row, ok_of_mapError hmarshal, hversion, hstatus, rfl⟩, ⟨data, kind, htrigger, rfl⟩, rfl, rfl,
    (timersAfter_nil _ _).symm⟩

/-- A run of `commitFn` that comes to its end has made every write of the step. -/
theorem commitFn_stores {create : Bool} {token version : Nat} {arms : List JobSpec} {cancels : List (String × String)}
    (hrun : (s.commitFn create token step arms cancels).run.run faults h = (.ok version, h')) :
    SqlRows.Stores s create token step arms cancels version h.work h'.work := by
  have hparts : ∃ v h1 h2 h3 u1 u2, SqlRows.Stores s create token step [] [] v h.work h1.work ∧
      (s.saveJobs arms).run.run faults h1 = (.ok u1, h2) ∧ (s.deleteJobs cancels).run.run faults h2 = (.ok u2, h3) ∧
      version = v ∧ h' = h3 := by
    unfold SqlStore.commitFn at hrun
    dsimp only at hrun
    cases create with
    | true =>
      rw [if_pos rfl] at hrun
      obtain ⟨v, h1, hstore, hafter1⟩ := TxStep.bind_ok hrun
      obtain ⟨u1, h2, hsave, hafter2⟩ := TxStep.bind_ok hafter1
      obtain ⟨u2, h3, hdelete, hend⟩ := TxStep.bind_ok hafter2
      have hst := create_stores hstore
      exact ⟨v, h1, h2, h3, u1, u2, ⟨hst.version_eq, hst.snapshot, hst.journal, hst.outbox, hst.callLinks, hst.timers⟩, hsave,
        hdelete, TxStep.pure_ok hend⟩
    | false =>
      rw [if_neg Bool.false_ne_true] at hrun
      obtain ⟨v, h1, hstore, hafter1⟩ := TxStep.bind_ok hrun
      obtain ⟨u1, h2, hsave, hafter2⟩ := TxStep.bind_ok hafter1
      obtain ⟨u2, h3, hdelete, hend⟩ := TxStep.bind_ok hafter2
      exact ⟨v, h1, h2, h3, u1, u2, commit_stores hstore, hsave, hdelete, TxStep.pure_ok hend⟩
  obtain ⟨v, h1, h2, h3, u1, u2, hfirst, hsave, hdelete, rfl, rfl⟩ := hparts
  have htimers : h1.work.timers = h.work.timers := hfirst.timers.trans (timersAfter_nil _ _)
  rw [deleteJobs_ok hdelete, saveJobs_ok hsave]
  refine ⟨hfirst.version_eq, hfirst.snapshot, hfirst.journal, hfirst.outbox, hfirst.callLinks, ?_⟩
  dsimp only
  rw [timersAfter_both, htimers]

end Writes

/-! ## The result -/

/-- For every step and whatever fails, the tables have the whole step or are as they were; an iteration that returns an error
has activated no timer, synced no waiter and performed no command, and one that does not has stored the step. And `RunInTx`
never succeeds with a participant rolled back, whatever its function does with the error. -/
theorem step_commits_whole_or_not (s : SqlStore) (faults : Faults) (due : JobSpec → Bool) (create : Bool) (token : Nat)
    (step : SqlStep) (arms : List JobSpec) (cancels : List (String × String)) (commands : List Command) (db : SqlRows) :
    ((∃ version, SqlRows.Stores s create token step arms cancels version db
          (s.deliverStep faults due create token step arms cancels commands db).db) ∨
        (s.deliverStep faults due create token step arms cancels commands db).db = db ∧
          ∃ e, (s.deliverStep faults due create token step arms cancels commands db).result = .error e) ∧
      (∀ e, (s.deliverStep faults due create token step arms cancels commands db).result = .error e →
        (s.deliverStep faults due create token step arms cancels commands db).activated = [] ∧
        (s.deliverStep faults due create token step arms cancels commands db).deactivated = [] ∧
        (s.deliverStep faults due create token step arms cancels commands db).synced = none ∧
        (s.deliverStep faults due create token step arms cancels commands db).performs = []) ∧
      ∀ fn : Tx SqlRows (Except String Unit), fn.rollsBack faults { work := db } = true →
        ∃ e, runInTx faults s.mapConflict fn db = (.error e, db) := by
  refine ⟨?_, ?_, fun fn hroll => runInTx_rolledBack hroll⟩
  · unfold SqlStore.deliverStep
    split
    · rename_i e db' hrun
      rcases runInTx_error hrun with rfl | ⟨version, h, hfn, -, rfl⟩
      · exact Or.inr ⟨rfl, _, rfl⟩
      · exact Or.inl ⟨version, commitFn_stores hfn⟩
    · rename_i version db' hrun
      obtain ⟨h, hfn, -, rfl⟩ := runInTx_ok hrun
      exact Or.inl ⟨version, commitFn_stores hfn⟩
  · intro e he
    unfold SqlStore.deliverStep at he ⊢
    split at he
    · exact ⟨rfl, rfl, rfl, rfl⟩
    · cases he

end Wrkflw
