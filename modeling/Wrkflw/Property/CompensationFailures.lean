import Wrkflw.Machine.DeskRun
import Mathlib.Data.List.Pairwise

/-!
# Failed compensations

Which compensation-failed incidents are open, record by record. A record's command that fails may be tried again under a
new command, so the incidents are compared with the commands a record was given (`attempts`, read off the trace): only
the last of them can have an open incident, and once the walk has moved on from a command its incidents stay as they are.

* `attempts` : the commands of each record;
* `Desk.Accounts` : the invariant;
* `Turn` : everything an act can do to the failures and to the walk's command.
-/

namespace Wrkflw

variable {tries : List (String × Bool)} {inc : Incident}

/-! ## The commands of a record -/

/-- One command more for the newest record. -/
def joinNewest (id : String) : List (List String) → List (List String)
  | ids :: older => (id :: ids) :: older
  | [] => [[id]]

/-- The commands that went out for compensation records: one list for each record, the newest record and the last command
first. -/
def attempts : List (String × Bool) → List (List String)
  | [] => []
  | (id, again) :: rest => if again then joinNewest id (attempts rest) else [id] :: attempts rest

def InstanceState.recordAttempts (s : InstanceState) : List (List String) := attempts (s.trace.filterMap Event.try?)

/-- The open compensation-failed incidents about the commands. -/
def InstanceState.openFailures (s : InstanceState) (ids : List String) : List Incident :=
  s.incidents.filter (fun inc => inc.kind == .compensationFailed && ids.contains inc.commandID)

theorem attempts_new (id : String) (tries : List (String × Bool)) :
    attempts ((id, false) :: tries) = [id] :: attempts tries := rfl

theorem attempts_again (id : String) {ids : List String} {older : List (List String)}
    (h : attempts tries = ids :: older) : attempts ((id, true) :: tries) = (id :: ids) :: older := by
  change joinNewest id (attempts tries) = _
  rw [h]
  rfl

theorem joinNewest_flatten (id : String) (groups : List (List String)) :
    (joinNewest id groups).flatten = id :: groups.flatten := by
  cases groups <;> rfl

theorem attempts_flatten (tries : List (String × Bool)) : (attempts tries).flatten = tries.map (·.1) := by
  induction tries with
  | nil => rfl
  | cons t tries ih =>
    obtain ⟨id, again⟩ := t
    rw [List.map_cons, ← ih]
    cases again with
    | false => rfl
    | true => exact joinNewest_flatten id (attempts tries)

/-- Every record has a command. -/
theorem attempts_ne_nil (tries : List (String × Bool)) : [] ∉ attempts tries := by
  induction tries with
  | nil => simp [attempts]
  | cons t tries ih =>
    obtain ⟨id, again⟩ := t
    cases again with
    | false => simpa [attempts] using ih
    | true =>
      change [] ∉ joinNewest id (attempts tries)
      cases hg : attempts tries with
      | nil => simp [joinNewest]
      | cons ids older =>
        rw [hg] at ih
        simp only [joinNewest, List.mem_cons, reduceCtorEq, false_or]
        exact fun hmem => ih (List.mem_cons_of_mem _ hmem)

theorem mem_attempts {id : String} {ids : List String} (hids : ids ∈ attempts tries)
    (hid : id ∈ ids) : id ∈ tries.map (·.1) := by
  rw [← attempts_flatten]
  exact List.mem_flatten.mpr ⟨ids, hids, hid⟩

/-- A command is tried for one record only. -/
theorem attempts_unique (h : (tries.map (·.1)).Nodup) {id : String} {ids ids' : List String}
    (h1 : ids ∈ attempts tries) (hid : id ∈ ids) (h2 : ids' ∈ attempts tries) (hid' : id ∈ ids') : ids = ids' := by
  rw [← attempts_flatten, List.nodup_flatten] at h
  by_contra hne
  have hsymm : Std.Symm (List.Disjoint (α := String)) := ⟨fun _ _ hd _ h1 h2 => hd h2 h1⟩
  have hdisjoint : ids.Disjoint ids' := h.2.forall h1 h2 hne
  exact hdisjoint hid hid'

/-! ## The invariant -/

/-- The compensation-failed incidents. -/
def Desk.failed (d : Desk) : List Incident := d.incidents.filter (fun inc => inc.kind == .compensationFailed)

/-- Only the last command of a record has an open failure, one at most, and the walk's command has none while it is out. -/
structure Desk.Accounts (g : IDGenerator) (d : Desk) : Prop where
  minted : ∀ t ∈ d.tries, Minted g .command d.cmdSeq t.1
  nodup : (d.tries.map (·.1)).Nodup
  current : d.walk ≠ "" → ∃ ids older, attempts d.tries = (d.walk :: ids) :: older
  tokenless : ∀ inc ∈ d.failed, inc.tokenID = ""
  last : ∀ inc ∈ d.failed, ∃ ids, inc.commandID :: ids ∈ attempts d.tries
  single : (d.failed.map (·.commandID)).Nodup
  waits : d.backoff = false → ∀ inc ∈ d.failed, inc.commandID ≠ d.walk

variable {g : IDGenerator} {trg : TriggerBody} {d0 d d' : Desk} {cmds : List Command}

namespace Desk.Accounts

theorem tried (h : d.Accounts g) (hinc : inc ∈ d.failed) : inc.commandID ∈ d.tries.map (·.1) := by
  obtain ⟨ids, hids⟩ := h.last inc hinc
  exact mem_attempts hids List.mem_cons_self

theorem mintedID (h : d.Accounts g) {id : String} (hid : id ∈ d.tries.map (·.1)) : Minted g .command d.cmdSeq id := by
  obtain ⟨t, ht, rfl⟩ := List.mem_map.mp hid
  exact h.minted t ht

theorem named (h : d.Accounts g) (hinc : inc ∈ d.failed) : inc.commandID ≠ "" :=
  (h.mintedID (h.tried hinc)).ne_empty

end Desk.Accounts

/-! ## What an act does -/

/-- What an act can do to the open failures and to the walk's command. -/
inductive Turn (g : IDGenerator) (trg : TriggerBody) (d0 d d' : Desk) : Prop
  | keep (htries : d'.tries = d.tries) (hwalk : d'.walk = d.walk) (hback : d'.backoff = d.backoff)
      (hseq : d.cmdSeq ≤ d'.cmdSeq) (hfailed : d'.failed = d.failed)
  | settle (htries : d'.tries = d.tries) (hwalk : d'.walk = "") (hseq : d'.cmdSeq = d.cmdSeq)
      (hfailed : d'.failed = d.failed)
  | backOff (hd : d' = { d with backoff := true })
  | out (again backoff : Bool) (hagain : again = true → d.Renewable)
      (hd : d' = { d with
        walk := g.newID .command (d.cmdSeq + 1), cmdSeq := d.cmdSeq + 1, backoff := backoff,
        tries := (g.newID .command (d.cmdSeq + 1), again) :: d.tries })
  | report (inc : Incident) (hfailure : WalkFailure d0 d trg inc) (htok : inc.tokenID = "") (htries : d'.tries = d.tries)
      (hwalk : d'.walk = d.walk) (hback : d'.backoff = d.backoff) (hseq : d'.cmdSeq = d.cmdSeq)
      (hfailed : d'.failed = d.failed ++ [inc])
  | retire (p : Incident → Bool)
      (hp : ∀ inc ∈ d.failed, p inc = false → inc.commandID = d0.walk ∧ WalkRenews d0 trg) (htries : d'.tries = d.tries)
      (hwalk : d'.walk = d.walk) (hback : d'.backoff = d.backoff) (hseq : d'.cmdSeq = d.cmdSeq)
      (hfailed : d'.failed = d.failed.filter p)

/-- The one element with a value. -/
theorem filter_of_nodup_map {α β : Type} [BEq β] [LawfulBEq β] {f : α → β} {l : List α} {a : α} {b : β} (h : (l.map f).Nodup)
    (ha : a ∈ l) (hb : f a = b) : l.filter (fun c => f c == b) = [a] := by
  induction l with
  | nil => cases ha
  | cons c l ih =>
    obtain ⟨hc, hl⟩ := List.nodup_cons.mp h
    rcases List.mem_cons.mp ha with rfl | ha
    · rw [List.filter_cons_of_pos (by simpa using hb), List.filter_eq_nil_iff.mpr]
      intro c hmem heq
      exact hc (List.mem_map.mpr ⟨c, hmem, (by simpa using heq : f c = b).trans hb.symm⟩)
    · have hne : f c ≠ b := by
        intro he
        exact hc (List.mem_map.mpr ⟨a, ha, hb.trans he.symm⟩)
      rw [List.filter_cons_of_neg (by simpa using hne)]
      exact ih hl ha

/-- An element that is filtered out may as well be erased. -/
theorem filter_eraseP {α : Type} {p q : α → Bool} {l : List α} {a : α} (h : l.find? p = some a) (hq : q a = false) :
    (l.eraseP p).filter q = l.filter q := by
  induction l with
  | nil => cases h
  | cons b l ih =>
    by_cases hb : p b = true
    · rw [List.find?_cons_of_pos hb] at h
      cases h
      rw [List.eraseP_cons_of_pos hb, List.filter_cons_of_neg (by simp [hq])]
    · rw [List.find?_cons_of_neg hb] at h
      rw [List.eraseP_cons_of_neg hb, List.filter_cons, List.filter_cons, ih h]

theorem failed_append (d : Desk) (hkind : inc.kind ≠ .compensationFailed) :
    (d.incidents ++ [inc]).filter (fun inc => inc.kind == .compensationFailed) = d.failed := by
  rw [List.filter_append, List.filter_cons_of_neg (by simpa using hkind), List.filter_nil, List.append_nil]
  rfl

/-- A part of the incidents that has all the failed ones. -/
theorem failed_filter (d : Desk) {p : Incident → Bool} (h : ∀ inc ∈ d.failed, p inc = true) :
    (d.incidents.filter p).filter (fun inc => inc.kind == .compensationFailed) = d.failed := by
  rw [List.filter_filter, Desk.failed]
  refine List.filter_congr (fun inc hinc => ?_)
  by_cases hk : inc.kind = .compensationFailed
  · rw [h inc (List.mem_filter.mpr ⟨hinc, by simpa using hk⟩), Bool.and_true]
  · simp [hk]

theorem Wait.cmdSeq_le {tok : Token} {f : Token → Token} {tasks : List HumanTask} {nc nt n : Nat}
    (h : Wait g d tok f tasks nc nt n cmds) : d.cmdSeq ≤ nc := by
  cases h <;> simp

/-- **What an act does to the failures.** -/
theorem Act.turn (hids : d.Ids g) (h : d.Accounts g) (hact : Act g trg d0 d d' cmds) : Turn g trg d0 d d' := by
  have haction : ∀ {inc : Incident}, inc.kind = .action → (inc.kind == IncidentKind.compensationFailed) = false :=
    fun hk => by rw [hk]; rfl
  cases hact with
  | fire name input => exact .keep rfl rfl rfl (Nat.le_succ _) rfl
  | park tok f tasks nc nt n m cmds armCmds arms gws trs hmem hact hwait harm =>
    exact .keep rfl rfl rfl hwait.cmdSeq_le rfl
  | defect tok inc hmem hact hid hkind htok hnode =>
    exact .keep rfl rfl rfl le_rfl (failed_append d (by rw [hkind]; decide))
  | fail tok inc hmem hnamed htrg harms hid hkind htok hnode =>
    exact .keep rfl rfl rfl le_rfl (failed_append d (by rw [hkind]; decide))
  | reinvoke tok f cmd arms m armCmds hmem hnamed htrg hf hcmd hkind harm => exact .keep rfl rfl rfl (Nat.le_succ _) rfl
  | resolve inc tok f cmd arms m armCmds n hd htrg hinc hkind hmem htok hf hcmd hhuman harm =>
    exact .keep rfl rfl rfl (Nat.le_succ _) (filter_eraseP hinc (haction hkind))
  | resolveGone inc hinc hkind hgone => exact .keep rfl rfl rfl le_rfl (filter_eraseP hinc (haction hkind))
  | cancel tok hmem harms =>
    refine .keep rfl rfl rfl le_rfl (failed_filter d (fun inc hinc => ?_))
    rw [h.tokenless inc hinc]
    simpa using (hids.sane.named tok hmem).symm
  | walkCommand cmd again backoff hcmd hhuman hagain => exact .out again backoff hagain rfl
  | settle => exact .settle rfl rfl rfl rfl
  | backOff => exact .backOff rfl
  | report inc hid htok hkind hfailed =>
    by_cases hk : inc.kind = .compensationFailed
    · refine .report inc (hfailed hk) htok rfl rfl rfl rfl ?_
      unfold Desk.failed
      rw [List.filter_append, List.filter_cons_of_pos (by simpa using hk), List.filter_nil]
    · exact .keep rfl rfl rfl le_rfl (failed_append d hk)
  | retire p hp hfailed =>
    refine .retire p (fun inc hinc hpi => ?_) rfl rfl rfl rfl ?_
    · exact hfailed inc hpi (by simpa using (List.mem_filter.mp hinc).2)
    · unfold Desk.failed
      rw [List.filter_filter, List.filter_filter]
      exact List.filter_congr (fun inc _ => Bool.and_comm _ _)
  | finish tokens cmds cuts exits st htokens hcancel hcmds =>
    refine .settle rfl rfl rfl (failed_filter d (fun inc hinc => ?_))
    have hk : inc.kind = .compensationFailed := by simpa using (List.mem_filter.mp hinc).2
    unfold Desk.outlives
    rw [h.tokenless inc hinc, hk]
    simp
  | _ => exact .keep rfl rfl rfl le_rfl rfl

/-- Fewer failures, and the walk as it was or over. -/
theorem Desk.Accounts.shrink (h : d.Accounts g) (htries : d'.tries = d.tries) (hseq : d.cmdSeq ≤ d'.cmdSeq)
    (hwalk : (d'.walk = d.walk ∧ (d'.backoff = false → d.backoff = false)) ∨ d'.walk = "")
    (hsub : d'.failed.Sublist d.failed) : d'.Accounts g where
  minted := by
    intro t ht
    rw [htries] at ht
    exact (h.minted t ht).mono hseq
  nodup := by
    rw [htries]
    exact h.nodup
  current := by
    intro hne
    rcases hwalk with ⟨hw, -⟩ | hw
    · rw [hw] at hne ⊢
      rw [htries]
      exact h.current hne
    · exact absurd hw hne
  tokenless := fun inc hinc => h.tokenless inc (hsub.subset hinc)
  last := by
    rw [htries]
    exact fun inc hinc => h.last inc (hsub.subset hinc)
  single := h.single.sublist (hsub.map _)
  waits := by
    intro hb inc hinc
    rcases hwalk with ⟨hw, hback⟩ | hw
    · rw [hw]
      exact h.waits (hback hb) inc (hsub.subset hinc)
    · rw [hw]
      exact h.named (hsub.subset hinc)

/-- The next command goes out. -/
theorem Desk.Accounts.out (h : d.Accounts g) {again : Bool} (backoff : Bool) (hagain : again = true → d.Renewable) :
    ({ d with
      walk := g.newID .command (d.cmdSeq + 1), cmdSeq := d.cmdSeq + 1, backoff := backoff,
      tries := (g.newID .command (d.cmdSeq + 1), again) :: d.tries } : Desk).Accounts g := by
  -- the older records keep their commands, and so does the walk's own record
  have hgroups : ∃ ids older, attempts ((g.newID .command (d.cmdSeq + 1), again) :: d.tries) =
      (g.newID .command (d.cmdSeq + 1) :: ids) :: older ∧
        ∀ inc ∈ d.failed, ∃ ids', inc.commandID :: ids' ∈ older := by
    cases again with
    | false => exact ⟨[], attempts d.tries, attempts_new _ _, h.last⟩
    | true =>
      obtain ⟨hne, hnone⟩ := hagain rfl
      obtain ⟨ids, older, he⟩ := h.current hne
      refine ⟨d.walk :: ids, older, attempts_again _ he, fun inc hinc => ?_⟩
      obtain ⟨ids', hids'⟩ := h.last inc hinc
      rw [he] at hids'
      rcases List.mem_cons.mp hids' with heq | hold
      · have hk := List.mem_filter.mp hinc
        exact absurd (List.cons.inj heq).1 (hnone inc hk.1 (by simpa using hk.2))
      · exact ⟨ids', hold⟩
  obtain ⟨ids, older, hnew, hlast⟩ := hgroups
  refine ⟨fun t ht => ?_, ?_, fun _ => ⟨ids, older, hnew⟩, h.tokenless, fun inc hinc => ?_, h.single, fun _ inc hinc => ?_⟩
  · rcases List.mem_cons.mp ht with rfl | ht
    · exact minted_self g .command (d.cmdSeq + 1)
    · exact (h.minted t ht).mono (Nat.le_succ _)
  · refine List.nodup_cons.mpr ⟨fun hmem => ?_, h.nodup⟩
    exact (h.mintedID hmem).ne_next rfl
  · obtain ⟨ids', hids'⟩ := hlast inc hinc
    refine ⟨ids', ?_⟩
    change inc.commandID :: ids' ∈ attempts ((g.newID .command (d.cmdSeq + 1), again) :: d.tries)
    rw [hnew]
    exact List.mem_cons_of_mem _ hids'
  · exact (h.mintedID (h.tried hinc)).ne_next

/-- When a failure of the walk's command is reported there is no other one. -/
theorem WalkFailure.unreported (h : WalkFailure d0 d trg inc) (h0 : d0.Accounts g) :
    ∀ i ∈ d.failed, i.commandID ≠ d0.walk := by
  intro i hi
  have hmem := List.mem_filter.mp hi
  exact h0.waits h.first i (List.mem_filter.mpr ⟨h.old hmem.1, hmem.2⟩)

/-- **Every turn keeps the accounts.** -/
theorem Turn.accounts (h0 : d0.Accounts g) (h : d.Accounts g) (hturn : Turn g trg d0 d d') : d'.Accounts g := by
  cases hturn with
  | keep htries hwalk hback hseq hfailed =>
    exact h.shrink htries hseq (Or.inl ⟨hwalk, fun hb => hback ▸ hb⟩) (hfailed ▸ List.Sublist.refl _)
  | settle htries hwalk hseq hfailed => exact h.shrink htries hseq.ge (Or.inr hwalk) (hfailed ▸ List.Sublist.refl _)
  | backOff hd =>
    subst hd
    exact h.shrink rfl le_rfl (Or.inl ⟨rfl, fun hb => by cases hb⟩) (List.Sublist.refl _)
  | out again backoff hagain hd =>
    subst hd
    exact h.out backoff hagain
  | report inc hfailure htok htries hwalk hback hseq hfailed =>
    have hsame : ∀ i, i ∈ d'.failed ↔ i ∈ d.failed ∨ i = inc := fun i => by rw [hfailed]; simp
    refine ⟨?_, ?_, ?_, fun i hi => ?_, fun i hi => ?_, ?_, fun hb i hi => ?_⟩
    · rw [htries, hseq]
      exact h.minted
    · rw [htries]
      exact h.nodup
    · rw [htries, hwalk]
      exact h.current
    · rcases (hsame i).mp hi with hi | rfl
      · exact h.tokenless i hi
      · exact htok
    · rw [htries]
      rcases (hsame i).mp hi with hi | rfl
      · exact h.last i hi
      · obtain ⟨ids, older, he⟩ := h0.current hfailure.walking
        refine ⟨ids, ?_⟩
        rw [hfailure.tries, he, hfailure.names]
        exact List.mem_cons_self
    · rw [hfailed, List.map_append, List.nodup_append]
      refine ⟨h.single, List.nodup_singleton _, fun id hid id' hid' => ?_⟩
      obtain ⟨i, hi, rfl⟩ := List.mem_map.mp hid
      have hnew : id' = d0.walk := (List.mem_singleton.mp hid').trans hfailure.names
      rw [hnew]
      exact hfailure.unreported h0 i hi
    · have hover : d'.walk = "" := by
        rcases hfailure.moved with hw | hw
        · rw [hwalk, hw]
        · rw [← hback, hb] at hw
          cases hw
      rw [hover]
      rcases (hsame i).mp hi with hi | rfl
      · exact h.named hi
      · rw [hfailure.names]
        exact hfailure.walking
  | retire p hp htries hwalk hback hseq hfailed =>
    refine h.shrink htries hseq.ge (Or.inl ⟨hwalk, fun hb => hback ▸ hb⟩) ?_
    rw [hfailed]
    exact List.filter_sublist

/-! ## Commands the walk has left behind -/

/-- The failures of one command. -/
def Desk.failedOf (d : Desk) (id : String) : List Incident := d.failed.filter (fun inc => inc.commandID == id)

/-- The walk has moved on from the command, the last one of its record, and these are its open failures. -/
structure Desk.Past (id : String) (rest : List String) (left : List Incident) (d : Desk) : Prop where
  last : id :: rest ∈ attempts d.tries
  past : d.walk ≠ id
  failures : d.failedOf id = left

/-- The step is not about the command, or what it does to its failures is done. -/
def Calm (id : String) (left : List Incident) (d0 : Desk) (trg : TriggerBody) : Prop :=
  d0.walk = id → (WalkFails d0 trg → left ≠ []) ∧ (WalkRenews d0 trg → left = [])

/-- The failures of a command the walk is not at, or is done with, stay as they are. -/
theorem Turn.failedOf {id : String} {left : List Incident} (h0 : d0.Accounts g) (hcalm : Calm id left d0 trg)
    (hleft : d.failedOf id = left) (hturn : Turn g trg d0 d d') : d'.failedOf id = left := by
  have hkeep : d'.failed = d.failed → d'.failedOf id = left := fun he => by rw [← hleft, Desk.failedOf, he, Desk.failedOf]
  cases hturn with
  | keep htries hwalk hback hseq hfailed => exact hkeep hfailed
  | settle htries hwalk hseq hfailed => exact hkeep hfailed
  | backOff hd =>
    subst hd
    exact hleft
  | out again backoff hagain hd =>
    subst hd
    exact hleft
  | report inc hfailure htok htries hwalk hback hseq hfailed =>
    have hne : inc.commandID ≠ id := by
      intro he
      obtain ⟨i, hi⟩ := List.exists_mem_of_ne_nil _ ((hcalm (hfailure.names.symm.trans he)).1 hfailure.fails)
      rw [← hleft] at hi
      have hmem := List.mem_filter.mp hi
      refine hfailure.unreported h0 i hmem.1 ?_
      rw [← hfailure.names, he]
      simpa using hmem.2
    rw [Desk.failedOf, hfailed, List.filter_append, List.filter_cons_of_neg (by simpa using hne), List.filter_nil,
      List.append_nil]
    exact hleft
  | retire p hp htries hwalk hback hseq hfailed =>
    rw [Desk.failedOf, hfailed, List.filter_filter]
    rw [← hleft, Desk.failedOf]
    refine List.filter_congr (fun inc hinc => ?_)
    by_cases hid : inc.commandID = id
    · cases hpi : p inc with
      | true => simp
      | false =>
        obtain ⟨hcmd, hren⟩ := hp inc hinc hpi
        have hempty := (hcalm (hcmd.symm.trans hid)).2 hren
        have hin : inc ∈ d.failedOf id := List.mem_filter.mpr ⟨hinc, by simpa using hid⟩
        rw [hleft, hempty] at hin
        cases hin
    · simp [hid]

/-- A command that is not tried again stays the last one of its record. -/
theorem Turn.last {id : String} {rest : List String} (h : d.Accounts g) (hlast : id :: rest ∈ attempts d.tries)
    (hout : d.walk ≠ id ∨ d.failedOf id ≠ []) (hturn : Turn g trg d0 d d') : id :: rest ∈ attempts d'.tries := by
  cases hturn with
  | keep htries hwalk hback hseq hfailed => exact htries ▸ hlast
  | settle htries hwalk hseq hfailed => exact htries ▸ hlast
  | backOff hd => exact hd ▸ hlast
  | out again backoff hagain hd =>
    rw [hd]
    change id :: rest ∈ attempts ((g.newID .command (d.cmdSeq + 1), again) :: d.tries)
    cases again with
    | false =>
      rw [attempts_new]
      exact List.mem_cons_of_mem _ hlast
    | true =>
      obtain ⟨hne, hnone⟩ := hagain rfl
      obtain ⟨ids, older, he⟩ := h.current hne
      rw [he] at hlast
      rw [attempts_again _ he]
      rcases List.mem_cons.mp hlast with heq | hold
      · -- the walk's own command is tried again only when no failure of it is open
        have hid : id = d.walk := (List.cons.inj heq).1
        obtain ⟨i, hi⟩ := List.exists_mem_of_ne_nil _ (hout.resolve_left (fun hw => hw hid.symm))
        have hmem := List.mem_filter.mp hi
        have hfail := List.mem_filter.mp hmem.1
        refine absurd ?_ (hnone i hfail.1 (by simpa using hfail.2))
        rw [← hid]
        simpa using hmem.2
      · exact List.mem_cons_of_mem _ hold
  | report inc hfailure htok htries hwalk hback hseq hfailed => exact htries ▸ hlast
  | retire p hp htries hwalk hback hseq hfailed => exact htries ▸ hlast

theorem Turn.past {id : String} {rest : List String} {left : List Incident} (h0 : d0.Accounts g) (h : d.Accounts g)
    (hcalm : Calm id left d0 trg) (hpast : d.Past id rest left) (hturn : Turn g trg d0 d d') : d'.Past id rest left := by
  have hid : Minted g .command d.cmdSeq id := h.mintedID (mem_attempts hpast.last List.mem_cons_self)
  refine ⟨hturn.last h hpast.last (Or.inl hpast.past), ?_, hturn.failedOf h0 hcalm hpast.failures⟩
  cases hturn with
  | keep htries hwalk hback hseq hfailed => exact hwalk ▸ hpast.past
  | settle htries hwalk hseq hfailed =>
    rw [hwalk]
    exact hid.ne_empty.symm
  | backOff hd => exact hd ▸ hpast.past
  | out again backoff hagain hd =>
    rw [hd]
    exact hid.ne_next.symm
  | report inc hfailure htok htries hwalk hback hseq hfailed => exact hwalk ▸ hpast.past
  | retire p hp htries hwalk hback hseq hfailed => exact hwalk ▸ hpast.past

/-! ## Operations -/

theorem Acts.accounts (h0 : d0.Accounts g) (hids : d.Ids g) (h : d.Accounts g) (hacts : Acts g trg d0 d d' cmds) :
    d'.Ids g ∧ d'.Accounts g :=
  Acts.induct (fun hids h hact => (hact.turn hids h).accounts h0 h) hacts hids h

/-- What every turn of a step keeps. -/
theorem Acts.turns {I : Desk → Prop} (h0 : d0.Accounts g) (hids : d.Ids g) (h : d.Accounts g)
    (hI : I d) (hturn : ∀ {d d'}, d.Accounts g → I d → Turn g trg d0 d d' → I d') (hacts : Acts g trg d0 d d' cmds) :
    I d' := by
  have hboth : d'.Ids g ∧ d'.Accounts g ∧ I d' :=
    Acts.induct (I := fun d => d.Accounts g ∧ I d)
      (fun hids h hact => ⟨(hact.turn hids h.1).accounts h0 h.1, hturn h.1 h.2 (hact.turn hids h.1)⟩) hacts hids ⟨h, hI⟩
  exact hboth.2.2

section Runs
variable {p : ProcessDefinition} {gen : Option IDGenerator} {inst : String} {calls later : List Call} {x y : InstanceState}
  {call : Call} {r : StepResult} {id : String} {rest : List String} {left : List Incident}

/-- What the next step needs of a state. -/
structure Audited (gen : Option IDGenerator) (inst : String) (x : InstanceState) : Prop where
  sound : Steps.Sound gen inst x
  ids : x.desk.Ids (runIDs gen inst)
  accounts : x.desk.Accounts (runIDs gen inst)

theorem blank_audited (gen : Option IDGenerator) (inst : String) : Audited gen inst { instanceID := inst } where
  sound := Run.blank_sound gen inst
  ids := blank_ids _ inst
  accounts := ⟨by simp [InstanceState.desk, ControlState.front], by simp [InstanceState.desk, ControlState.front],
    fun hne => absurd rfl hne, by simp [Desk.failed, InstanceState.desk], by simp [Desk.failed, InstanceState.desk],
    by simp [Desk.failed, InstanceState.desk], by simp [Desk.failed, InstanceState.desk]⟩

/-- The tasks have nothing to do with the failures. -/
theorem Desk.Past.tasks (h : d.Past id rest left) (tasks : List HumanTask) :
    ({ d with tasks := tasks } : Desk).Past id rest left :=
  ⟨h.last, h.past, h.failures⟩

namespace Audited

theorem ctx (h : Audited gen inst x) (hgen : call.opt.idGenerator = gen) : call.opt.ids x.instanceID = runIDs gen inst := by
  unfold StepOptions.ids runIDs
  rw [hgen, h.sound.instanceID]

theorem step (h : Audited gen inst x) (hgen : call.opt.idGenerator = gen)
    (hstep : Wrkflw.step call.fuel p x call.trigger call.opt = .ok r) : Audited gen inst r.state := by
  have hsound := h.sound.step hgen hstep
  obtain ⟨r0, hdoes, rfl⟩ := step_does h.sound.wf.phase.status.mp hstep
  rw [h.ctx hgen] at hdoes
  obtain ⟨hids, hacc⟩ := Acts.accounts h.accounts h.ids h.accounts hdoes
  obtain ⟨tasks, hdesk⟩ := dropStaleTokenCommands_desk r0
  refine ⟨hsound, ?_, ?_⟩
  · rw [hdesk]
    exact ⟨hids.minted, hids.nodup, hids.finals, hids.queue⟩
  · rw [hdesk]
    exact ⟨hacc.minted, hacc.nodup, hacc.current, hacc.tokenless, hacc.last, hacc.single, hacc.waits⟩

theorem steps (h : Audited gen inst x) (hlater : Steps p gen x later y) : Audited gen inst y := by
  induction hlater with
  | refl => exact h
  | tail _ call r hgen hstep ih => exact ih.step hgen hstep

/-- **The failures of a command the walk has moved on from never change.** -/
theorem past_steps (h : Audited gen inst x) (hpast : x.desk.Past id rest left) (hlater : Steps p gen x later y) :
    y.desk.Past id rest left := by
  induction hlater with
  | refl => exact hpast
  | @tail calls z hpre call r hgen hstep ih =>
    have hz := h.steps hpre
    obtain ⟨r0, hdoes, rfl⟩ := step_does hz.sound.wf.phase.status.mp hstep
    rw [hz.ctx hgen] at hdoes
    have hcalm : Calm id left z.desk call.trigger.body := fun hw => absurd hw ih.past
    obtain ⟨tasks, hdesk⟩ := dropStaleTokenCommands_desk r0
    rw [hdesk]
    exact (Acts.turns hz.accounts hz.ids hz.accounts ih (fun ha hp ht => ht.past hz.accounts ha hcalm hp) hdoes).tasks tasks

end Audited

/-! ## Moving on from a command -/

theorem step_handled {p : ProcessDefinition} (hlive : x.status.isTerminal = false)
    (h : Wrkflw.step call.fuel p x call.trigger call.opt = .ok r) :
    ∃ r0, handle (drive (stepCtx p x call.trigger call.opt) call.fuel) (stepCtx p x call.trigger call.opt) x
      call.trigger.body = .ok r0 ∧ r = dropStaleTokenCommands r0 := by
  unfold Wrkflw.step at h
  obtain ⟨u, -, h⟩ := bind_ok h
  obtain ⟨-, -, h⟩ := bind_ok h
  dsimp only at h
  obtain ⟨r0, h0, h⟩ := bind_ok h
  unfold dispatch at h0
  rw [if_neg (by rw [hlive]; decide)] at h0
  exact ⟨r0, h0, (Except.ok.inj h).symm⟩

theorem armRetry_walk {c : StepCtx} {s : InstanceState} {nodeID err : String} {retryable : Bool} {r : StepResult}
    (h : armCompensationRetryTimer c s nodeID err retryable = some r) :
    r.state.compensating.activeCmdID = s.compensating.activeCmdID := by
  unfold armCompensationRetryTimer at h
  split at h
  · cases h
  · dsimp only at h
    split at h
    · cases h
    · split at h
      · cases h
      · rw [← Option.some.inj h]
        rfl

namespace Audited

/-- What is left of a step once the walk's command is off the desk. -/
theorem after {d1 : Desk} {r0 : StepResult} {cmds1 cmds2 : List Command} (h : Audited gen inst x) {trg : TriggerBody}
    (hcalm : Calm id left x.desk trg) (hto : Acts (runIDs gen inst) trg x.desk x.desk d1 cmds1) (hpast : d1.Past id rest left)
    (hrest : Acts (runIDs gen inst) trg x.desk d1 r0.state.desk cmds2) :
    (dropStaleTokenCommands r0).state.desk.Past id rest left := by
  obtain ⟨hids, hacc⟩ := Acts.accounts h.accounts h.ids h.accounts hto
  obtain ⟨tasks, hdesk⟩ := dropStaleTokenCommands_desk r0
  rw [hdesk]
  exact (Acts.turns h.accounts hids hacc hpast (fun ha hp ht => ht.past h.accounts ha hcalm hp) hrest).tasks tasks

/-- **A completed command leaves no failure behind.** -/
theorem completed (h : Audited gen inst x) (hst : x.status = .compensating) (hgen : call.opt.idGenerator = gen)
    {output : Vars} (hbody : call.trigger.body = .actionCompleted x.compensating.activeCmdID output)
    (hstep : Wrkflw.step call.fuel p x call.trigger call.opt = .ok r) :
    ∃ rest, r.state.desk.Past x.compensating.activeCmdID rest [] := by
  have hne : x.compensating.activeCmdID ≠ "" := h.sound.wf.phase.status.mp hst
  obtain ⟨rest, older, he⟩ := h.accounts.current hne
  obtain ⟨r0, h0, rfl⟩ := step_handled (by rw [hst]; rfl) hstep
  have hren : WalkRenews x.desk call.trigger.body := by
    rw [hbody]
    exact rfl
  have hcalm : Calm x.compensating.activeCmdID [] x.desk call.trigger.body := by
    refine fun _ => ⟨?_, fun _ => rfl⟩
    rintro ⟨_, _, _, _, hf⟩
    rw [hbody] at hf
    cases hf
  have hto : Acts (runIDs gen inst) call.trigger.body x.desk x.desk _ [] :=
    Acts.trans (show Acts _ _ _ _ (x.desk.retired .compensationFailed x.compensating.activeCmdID) [] from
      acts_retired _ (by decide) _ (fun _ => ⟨rfl, hren⟩)) Act.settle.acts
  rw [hbody] at h0
  have h1 : handleActionCompleted _ _ x x.compensating.activeCmdID output = .ok r0 := h0
  unfold handleActionCompleted at h1
  rw [if_pos (by simp [hst])] at h1
  have hadv : Acts (call.opt.ids x.instanceID) call.trigger.body x.desk _ r0.state.desk r0.commands :=
    acts_advance (c := stepCtx p x call.trigger call.opt) (does_drive call.fuel) h1
  rw [h.ctx hgen, InstanceState.retireCompensationFailedIncidents, retireIncidents_desk] at hadv
  refine ⟨rest, h.after hcalm hto ⟨?_, hne.symm, ?_⟩ hadv⟩
  · have htries : (x.desk.retired .compensationFailed x.compensating.activeCmdID).tries = x.desk.tries := by
      unfold Desk.retired
      split <;> rfl
    change _ ∈ attempts (x.desk.retired .compensationFailed x.compensating.activeCmdID).tries
    rw [htries, he]
    exact List.mem_cons_self
  · refine List.filter_eq_nil_iff.mpr (fun inc hinc hcmd => ?_)
    change inc ∈ (x.desk.retired .compensationFailed x.compensating.activeCmdID).failed at hinc
    rw [Desk.retired, if_neg (by simpa using hne)] at hinc
    have hk := List.mem_filter.mp hinc
    have hkept := (List.mem_filter.mp hk.1).2
    simp_all

/-- **A command that failed and is not tried again leaves one failure behind.** -/
theorem failed (h : Audited gen inst x) (hst : x.status = .compensating) (hgen : call.opt.idGenerator = gen) {err : String}
    {retryable : Bool} {jitter : Rat} {cause : Option String}
    (hbody : call.trigger.body = .actionFailed x.compensating.activeCmdID err retryable jitter cause)
    (hstep : Wrkflw.step call.fuel p x call.trigger call.opt = .ok r)
    (hmoved : r.state.compensating.activeCmdID ≠ x.compensating.activeCmdID) :
    ∃ rest inc, inc.commandID = x.compensating.activeCmdID ∧ r.state.desk.Past x.compensating.activeCmdID rest [inc] := by
  have hne : x.compensating.activeCmdID ≠ "" := h.sound.wf.phase.status.mp hst
  obtain ⟨rest, older, he⟩ := h.accounts.current hne
  obtain ⟨r0, h0, rfl⟩ := step_handled (by rw [hst]; rfl) hstep
  rw [dropStaleTokenCommands_control] at hmoved
  rw [hbody] at h0
  have h1 : handleActionFailed _ _ x x.compensating.activeCmdID err retryable jitter cause = .ok r0 := h0
  unfold handleActionFailed at h1
  rw [if_pos (by simp [hst])] at h1
  unfold handleCompensationFailed at h1
  split at h1
  · rw [← Except.ok.inj h1] at hmoved
    exact absurd rfl hmoved
  · rename_i htimer
    dsimp only at h1
    split at h1
    · rename_i r1 hretry
      rw [← Except.ok.inj h1] at hmoved
      exact absurd (armRetry_walk hretry) hmoved
    · have hback : x.desk.backoff = false := by simpa [InstanceState.desk, ControlState.front] using htimer
      have hfails : WalkFails x.desk call.trigger.body := ⟨err, retryable, jitter, cause, hbody⟩
      have hto : Acts (call.opt.ids x.instanceID) call.trigger.body x.desk x.desk _ [] :=
        acts_reported (c := stepCtx p x call.trigger call.opt) ⟨rfl, rfl, rfl, hne, hfails, hback⟩ err
      have hadv : Acts (call.opt.ids x.instanceID) call.trigger.body x.desk _ r0.state.desk r0.commands :=
        acts_advance (c := stepCtx p x call.trigger call.opt) (does_drive call.fuel) h1
      rw [h.ctx hgen] at hto hadv
      set inc := failureIncident (stepCtx p x call.trigger call.opt) x x.compensating.activeCmdID err
        ((stepCtx p x call.trigger call.opt).ids.newID .incident (x.incidentSeq + 1)) with hinc
      have hcalm : Calm x.compensating.activeCmdID [inc] x.desk call.trigger.body := by
        refine fun _ => ⟨fun _ => by simp, fun hren => ?_⟩
        rw [hbody] at hren
        exact hren.elim
      refine ⟨rest, inc, rfl, h.after hcalm hto ⟨?_, hne.symm, ?_⟩ hadv⟩
      · change _ ∈ attempts x.desk.tries
        rw [he]
        exact List.mem_cons_self
      · change ((x.incidents ++ [inc]).filter _).filter _ = [inc]
        have hnone : (x.incidents.filter (fun inc => inc.kind == .compensationFailed)).filter
            (fun inc => inc.commandID == x.compensating.activeCmdID) = [] := by
          refine List.filter_eq_nil_iff.mpr (fun i hi hcmd => ?_)
          exact h.accounts.waits hback i hi (beq_iff_eq.mp hcmd)
        rw [List.filter_append, List.filter_append, hnone]
        simp [hinc, failureIncident]

/-- **A command whose failure is open and that is not tried again keeps that failure.** -/
theorem givenUp (h : Audited gen inst x) (hst : x.status = .compensating) (hgen : call.opt.idGenerator = gen)
    (hinc : inc ∈ x.incidents) (hkind : inc.kind = .compensationFailed) (hcmd : inc.commandID = x.compensating.activeCmdID)
    (hren : ¬ WalkRenews x.desk call.trigger.body) (hstep : Wrkflw.step call.fuel p x call.trigger call.opt = .ok r)
    (hmoved : r.state.compensating.activeCmdID ≠ x.compensating.activeCmdID) :
    ∃ rest, r.state.desk.Past x.compensating.activeCmdID rest [inc] := by
  have hne : x.compensating.activeCmdID ≠ "" := h.sound.wf.phase.status.mp hst
  obtain ⟨rest, older, he⟩ := h.accounts.current hne
  have hone : x.desk.failedOf x.compensating.activeCmdID = [inc] :=
    filter_of_nodup_map h.accounts.single (List.mem_filter.mpr ⟨hinc, by simpa using hkind⟩) hcmd
  have hcalm : Calm x.compensating.activeCmdID [inc] x.desk call.trigger.body :=
    fun _ => ⟨fun _ => by simp, fun hr => absurd hr hren⟩
  obtain ⟨r0, hdoes, rfl⟩ := step_does h.sound.wf.phase.status.mp hstep
  rw [h.ctx hgen] at hdoes
  have hkept := Acts.turns (I := fun d => d.failedOf x.compensating.activeCmdID = [inc] ∧
    x.compensating.activeCmdID :: rest ∈ attempts d.tries) h.accounts h.ids h.accounts ⟨hone, he ▸ List.mem_cons_self⟩
    (fun ha hI ht => ⟨ht.failedOf h.accounts hcalm hI.1, ht.last ha hI.2 (Or.inr (by rw [hI.1]; simp))⟩) hdoes
  obtain ⟨tasks, hdesk⟩ := dropStaleTokenCommands_desk r0
  have hwalk : (dropStaleTokenCommands r0).state.desk.walk ≠ x.compensating.activeCmdID := hmoved
  rw [hdesk] at hwalk ⊢
  exact ⟨rest, hkept.2, hwalk, hkept.1⟩

end Audited

theorem Run.audited (h : Run p gen inst calls x) : Audited gen inst x := (blank_audited gen inst).steps h

/-! ## Records -/

/-- The open failures of a record are those of its last command. -/
theorem Desk.Accounts.openFailures {g : IDGenerator} (h : x.desk.Accounts g) (hids : id :: rest ∈ x.recordAttempts) :
    x.openFailures (id :: rest) = x.desk.failedOf id := by
  unfold InstanceState.openFailures Desk.failedOf Desk.failed
  rw [List.filter_filter]
  refine List.filter_congr (fun inc hinc => ?_)
  by_cases hkind : inc.kind = .compensationFailed
  · -- a failure about the record names a last command, so the record's own
    have hiff : (id :: rest).contains inc.commandID = (inc.commandID == id) := by
      rw [Bool.eq_iff_iff, List.contains_iff_mem, beq_iff_eq]
      refine ⟨fun hmem => ?_, fun he => he ▸ List.mem_cons_self⟩
      obtain ⟨ids', hids'⟩ := h.last inc (List.mem_filter.mpr ⟨hinc, by simpa using hkind⟩)
      exact (List.cons.inj (attempts_unique h.nodup hids' List.mem_cons_self hids hmem)).1
    rw [hiff, Bool.and_comm]
  · have hno : (inc.kind == IncidentKind.compensationFailed) = false := by simpa using hkind
    rw [hno, Bool.false_and, Bool.and_false]

theorem Desk.Accounts.failedOf_length {g : IDGenerator} (h : d.Accounts g) (id : String) : (d.failedOf id).length ≤ 1 := by
  cases hf : d.failedOf id with
  | nil => simp
  | cons inc incs =>
    have hinc : inc ∈ d.failedOf id := hf ▸ List.mem_cons_self
    obtain ⟨hmem, hid⟩ := List.mem_filter.mp hinc
    rw [← hf, Desk.failedOf, filter_of_nodup_map h.single hmem (beq_iff_eq.mp hid)]
    simp

theorem Desk.Past.openFailures {g : IDGenerator} (hpast : y.desk.Past id rest left) (h : y.desk.Accounts g) :
    id :: rest ∈ y.recordAttempts ∧ y.openFailures (id :: rest) = left :=
  ⟨hpast.last, (h.openFailures hpast.last).trans hpast.failures⟩

/-- The compensation-failed incidents of a state and of the states after it, record by record. -/
structure FailuresTracked (p : ProcessDefinition) (gen : Option IDGenerator) (x : InstanceState) : Prop where
  single : ∀ ids ∈ x.recordAttempts, (x.openFailures ids).length ≤ 1
  succeeded : ∀ (call : Call) (r : StepResult) (output : Vars), call.opt.idGenerator = gen → x.status = .compensating →
    call.trigger.body = .actionCompleted x.compensating.activeCmdID output →
    step call.fuel p x call.trigger call.opt = .ok r →
    ∃ earlier, ∀ later y, Steps p gen r.state later y →
      x.compensating.activeCmdID :: earlier ∈ y.recordAttempts ∧ y.openFailures (x.compensating.activeCmdID :: earlier) = []
  givenUp : ∀ (call : Call) (r : StepResult), call.opt.idGenerator = gen → x.status = .compensating →
    WalkFails x.desk call.trigger.body ∨ ((∃ inc ∈ x.incidents, inc.kind = .compensationFailed ∧
      inc.commandID = x.compensating.activeCmdID) ∧ ¬ WalkRenews x.desk call.trigger.body) →
    step call.fuel p x call.trigger call.opt = .ok r → r.state.compensating.activeCmdID ≠ x.compensating.activeCmdID →
    ∃ earlier inc, inc.commandID = x.compensating.activeCmdID ∧ ∀ later y, Steps p gen r.state later y →
      x.compensating.activeCmdID :: earlier ∈ y.recordAttempts ∧
      y.openFailures (x.compensating.activeCmdID :: earlier) = [inc]

/-- **Failed compensations are tracked record by record**: a record has one open failure at most however often it is tried
again, none once its command has succeeded, and exactly one, about its last command, once it is given up on with that
command failed; neither changes in any later state. -/
theorem compensation_failures_tracked (hrun : Run p gen inst calls x) : FailuresTracked p gen x := by
  have hx := hrun.audited
  refine ⟨fun ids hids => ?_, fun call r output hgen hst hbody hstep => ?_, fun call r hgen hst hwhy hstep hmoved => ?_⟩
  · cases ids with
    | nil => exact absurd hids (attempts_ne_nil _)
    | cons id rest =>
      rw [hx.accounts.openFailures hids]
      exact hx.accounts.failedOf_length id
  · obtain ⟨earlier, hpast⟩ := hx.completed hst hgen hbody hstep
    have hr := hx.step hgen hstep
    exact ⟨earlier, fun later y hl => (hr.past_steps hpast hl).openFailures (hr.steps hl).accounts⟩
  · have hr := hx.step hgen hstep
    rcases hwhy with ⟨err, retryable, jitter, cause, hbody⟩ | ⟨⟨inc, hinc, hkind, hcmd⟩, hren⟩
    · obtain ⟨earlier, inc, hcmd, hpast⟩ := hx.failed hst hgen hbody hstep hmoved
      exact ⟨earlier, inc, hcmd, fun later y hl => (hr.past_steps hpast hl).openFailures (hr.steps hl).accounts⟩
    · obtain ⟨earlier, hpast⟩ := hx.givenUp hst hgen hinc hkind hcmd hren hstep hmoved
      exact ⟨earlier, inc, hcmd, fun later y hl => (hr.past_steps hpast hl).openFailures (hr.steps hl).accounts⟩

end Runs

/-! ## Runs on fixed calls -/

/-- One activity that is undone, before a task. -/
def undoneActivity : ProcessDefinition := rowOf "undone" [serviceNode "a" "undo-a", userNode "w"]

/-- Without a retry policy the failed record is given up on, with one open failure. -/
theorem failed_undo_tracked : ∃ x r,
    Run undoneActivity none "i" (callsFrom 1 [.startInstance [] "", .actionCompleted "i-c1" [],
      .cancelRequested]) x ∧ step 50 undoneActivity x ⟨4, .actionFailed "i-c2" "boom" true 1 none⟩ plainOptions = .ok r ∧
    FailuresTracked undoneActivity none x ∧ x.compensating.activeCmdID = "i-c2" ∧
    ∃ earlier inc, inc.commandID = "i-c2" ∧ "i-c2" :: earlier ∈ r.state.recordAttempts ∧
      r.state.openFailures ("i-c2" :: earlier) = [inc] := by
  have hplay : playsThrough undoneActivity [.startInstance [] "", .actionCompleted "i-c1" [], .cancelRequested]
      (.actionFailed "i-c2" "boom" true 1 none) [] (fun x r _ => x.status == .compensating &&
        x.compensating.activeCmdID == "i-c2" && r.state.compensating.activeCmdID == "") = true := by decide
  obtain ⟨x, r, y, hrun, hstep, -, hP⟩ := run_of_playsThrough hplay
  simp only [Bool.and_eq_true, beq_iff_eq] at hP
  obtain ⟨⟨hst, hcmd⟩, hover⟩ := hP
  have htracked := compensation_failures_tracked hrun
  have hfails : WalkFails x.desk (.actionFailed "i-c2" "boom" true 1 none) :=
    ⟨"boom", true, 1, none, by rw [← hcmd]; rfl⟩
  obtain ⟨earlier, inc, hinc, hlater⟩ :=
    htracked.givenUp ⟨50, ⟨4, .actionFailed "i-c2" "boom" true 1 none⟩, plainOptions⟩ r rfl
    hst (Or.inl hfails) hstep (by rw [hover, hcmd]; decide)
  rw [hcmd] at hinc hlater
  exact ⟨x, r, hrun, hstep, htracked, hcmd, earlier, inc, hinc, hlater [] r.state Steps.refl⟩

/-- Options with a stall guard and a retry policy for compensations. -/
def watchfulOptions : StepOptions := { plainOptions with compensationStallAfter := 1, compensationRetryPolicy := some {} }

def watchfulCalls (n : Nat) : List TriggerBody → List Call
  | [] => []
  | trg :: trgs => ⟨50, ⟨n, trg⟩, watchfulOptions⟩ :: watchfulCalls (n + 1) trgs

theorem watchfulCalls_gen (n : Nat) (trgs : List TriggerBody) : ∀ call ∈ watchfulCalls n trgs,
    call.opt.idGenerator = none := by
  induction trgs generalizing n with
  | nil => simp [watchfulCalls]
  | cons trg trgs ih =>
    intro call hc
    rcases List.mem_cons.mp hc with rfl | hc
    · rfl
    · exact ih (n + 1) call hc

/-- The record's first command fails and is tried again; the operator skips the second one, which has not answered. -/
def skippedRetry : List TriggerBody :=
  [.startInstance [] "", .actionCompleted "i-c1" [], .cancelRequested, .actionFailed "i-c2" "boom" true 1 none,
    .timerFired "i-tm2", .timerFired "i-tm3", .resolveCompensationStall "i-c3" "i-inc2" .skip]

/-- The calls end the instance with the attempts, and without an incident. -/
def endsWithAttempts (calls : List Call) (attempts : List (List String)) : Bool :=
  match runCalls undoneActivity calls { instanceID := "i" } with
  | .ok x => x.status == .terminated && x.recordAttempts == attempts && x.incidents.isEmpty
  | .error _ => false

/-- A record that failed, was tried again and was skipped without an answer has no open failure. -/
theorem skipped_retry_unmarked : ∃ x, Run undoneActivity none "i" (watchfulCalls 1 skippedRetry) x ∧ x.status = .terminated ∧
    x.recordAttempts = [["i-c3", "i-c2"]] ∧ x.openFailures ["i-c3", "i-c2"] = [] := by
  have hplay : endsWithAttempts (watchfulCalls 1 skippedRetry) [["i-c3", "i-c2"]] = true := by decide
  unfold endsWithAttempts at hplay
  split at hplay
  · rename_i x hx
    simp only [Bool.and_eq_true, beq_iff_eq, List.isEmpty_iff] at hplay
    obtain ⟨⟨hst, htries⟩, hnone⟩ := hplay
    refine ⟨x, steps_of_runCalls Steps.refl (watchfulCalls_gen 1 skippedRetry) hx, hst, htries, ?_⟩
    unfold InstanceState.openFailures
    rw [hnone]
    rfl
  · cases hplay

end Wrkflw
