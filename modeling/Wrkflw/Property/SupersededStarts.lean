import Wrkflw.Property.StartTimers
import Wrkflw.Library.Runs

/-!
# Timer starts of superseded versions

A call of `RehydrateStartTimers` arms the timer starts of the newest definitions and takes no job out of the scheduler. The
id of a job has the version in it, so a newer version's jobs do not take the place of the older ones: what an earlier call
armed for a version that was superseded since stays armed, and fires.

* `mem_timerStartDefs_iff` : the source's selection is that of the newest registered version of each definition;
* `exactlyArmed_iff` : what a call that skips nothing leaves armed is exact where nothing armed before is of another version
  and no two ids clash, and only there;
* `start_timers_follow_latest` : the same from every state a process can come to, and over runs whose calls all meet it.
-/

namespace Wrkflw

open Library

variable {d : ProcessDefinition}

/-! ## The newest versions -/

def IsLatest (listed : List ProcessDefinition) (d : ProcessDefinition) : Prop :=
  d ∈ listed ∧ ∀ d' ∈ listed, d'.id = d.id → d'.version ≤ d.version

/-- A timer start of the newest version of a definition. -/
def LatestStart (listed : List ProcessDefinition) (hit : TimerStartHit) : Prop :=
  ∃ d, IsLatest listed d ∧ hit ∈ d.timerStarts

/-- No definition is listed under the id and the version of another. -/
def OneEach (listed : List ProcessDefinition) : Prop := (listed.map (·.qualifier)).Nodup

/-- For every definition one of its id is kept that is at least as new. -/
theorem latestPerID_newest (defs : List ProcessDefinition) :
    ∀ d ∈ defs, ∃ o ∈ latestPerID defs, o.id = d.id ∧ d.version ≤ o.version := by
  unfold latestPerID
  induction defs using List.reverseRecOn with
  | nil => exact nofun
  | append_singleton defs d ih =>
    rw [List.foldl_append, List.foldl_cons, List.foldl_nil]
    generalize defs.foldl _ [] = out at ih ⊢
    intro d' hd'
    split
    · next hany =>
      -- the newer of the two stands where the one of its id stood
      have hkeep : ∀ o ∈ out, ∃ o' ∈ out.map (fun o => if o.id == d.id && decide (o.version < d.version) then d else o),
          o'.id = o.id ∧ o.version ≤ o'.version ∧ (o.id = d.id → d.version ≤ o'.version) := by
        intro o ho
        refine ⟨_, List.mem_map_of_mem ho, ?_⟩
        by_cases hid : o.id = d.id
        · by_cases hlt : o.version < d.version
          · simp [hid, hlt, hlt.le]
          · simp [hid, hlt, not_lt.mp hlt]
        · simp [hid]
      rcases List.mem_append.mp hd' with hold | hnew
      · obtain ⟨o, ho, hid, hle⟩ := ih d' hold
        obtain ⟨o', ho', hid', hle', -⟩ := hkeep o ho
        exact ⟨o', ho', hid'.trans hid, hle.trans hle'⟩
      · rw [List.mem_singleton.mp hnew]
        obtain ⟨o, ho, hid⟩ := List.any_eq_true.mp hany
        obtain ⟨o', ho', hid', -, hle⟩ := hkeep o ho
        exact ⟨o', ho', hid'.trans (beq_iff_eq.mp hid), hle (beq_iff_eq.mp hid)⟩
    · rcases List.mem_append.mp hd' with hold | hnew
      · obtain ⟨o, ho, hid, hle⟩ := ih d' hold
        exact ⟨o, List.mem_append_left _ ho, hid, hle⟩
      · rw [List.mem_singleton.mp hnew]
        exact ⟨d, List.mem_append_right _ (List.mem_singleton.mpr rfl), rfl, le_rfl⟩

theorem OneEach.ext {listed : List ProcessDefinition} (h : OneEach listed) {d' : ProcessDefinition} (hd : d ∈ listed)
    (hd' : d' ∈ listed) (hid : d.id = d'.id) (hversion : d.version = d'.version) : d = d' := by
  refine List.inj_on_of_nodup_map h hd hd' ?_
  unfold ProcessDefinition.qualifier
  rw [hid, hversion]

theorem mem_latestPerID_iff {listed : List ProcessDefinition} (h : OneEach listed) :
    d ∈ latestPerID listed ↔ IsLatest listed d := by
  obtain ⟨hmem, hnodup⟩ := latestPerID_spec listed
  constructor
  · intro hd
    refine ⟨hmem d hd, fun d' hd' hid => ?_⟩
    obtain ⟨o, ho, hoid, hle⟩ := latestPerID_newest listed d' hd'
    rwa [List.inj_on_of_nodup_map hnodup ho hd (hoid.trans hid)] at hle
  · rintro ⟨hd, hnewest⟩
    obtain ⟨o, ho, hoid, hle⟩ := latestPerID_newest listed d hd
    have hversion : o.version = d.version := le_antisymm (hnewest o (hmem o ho) hoid) hle
    rwa [← h.ext (hmem o ho) hd hoid hversion]

theorem mem_timerStartDefs_iff {listed : List ProcessDefinition} (h : OneEach listed) {hit : TimerStartHit} :
    hit ∈ timerStartDefs listed ↔ LatestStart listed hit := by
  unfold timerStartDefs LatestStart
  rw [List.mem_flatMap]
  exact exists_congr (fun d => and_congr_left (fun _ => mem_latestPerID_iff h))

/-! ## What a call leaves armed -/

/-- One job for each timer start of the newest versions, and none else. -/
structure ExactlyArmed (armed : ArmedStarts) (listed : List ProcessDefinition) : Prop where
  all : ∀ hit, LatestStart listed hit → armed hit.timerID = some hit
  only : ∀ id hit, armed id = some hit → LatestStart listed hit ∧ id = hit.timerID
  apart : ∀ hit hit', LatestStart listed hit → LatestStart listed hit' → hit.key ≠ hit'.key → hit.timerID ≠ hit'.timerID

/-- Every armed job has the id of a timer start of the newest versions. -/
def ArmedStarts.Current (armed : ArmedStarts) (listed : List ProcessDefinition) : Prop :=
  ∀ id hit, armed id = some hit → ∃ hit', LatestStart listed hit' ∧ hit'.timerID = id

/-- No two timer starts of the newest versions clash. -/
def NoClash (listed : List ProcessDefinition) : Prop :=
  ∀ hit hit', LatestStart listed hit → LatestStart listed hit' → ¬ hit.key.Clashes hit'.key

section Call
variable {u : UnicodeTables} {env : ArmEnv} {listed : List ProcessDefinition} {armed : ArmedStarts} {hit : TimerStartHit}

/-- A call leaves the other jobs as they are. -/
theorem rehydrate_other (env : ArmEnv) (armed : ArmedStarts) {id : String} (hone : OneEach listed)
    (h : ∀ hit, LatestStart listed hit → hit.timerID ≠ id) :
    rehydrateStartTimers env listed armed id = armed id :=
  armStartTimers_other (fun hit hhit heq => h hit ((mem_timerStartDefs_iff hone).mp hhit) heq.symm)

theorem rehydrate_own (hvalid : ∀ d ∈ listed, validateDefinition u d = .ok ()) (hone : OneEach listed)
    (hall : env.ArmsAll listed) (hclash : NoClash listed) (h : LatestStart listed hit) :
    rehydrateStartTimers env listed armed hit.timerID = some hit := by
  have hids : (timerStartDefs listed).Pairwise (fun hit hit' => hit.timerID ≠ hit'.timerID) :=
    (timerStartDefs_keys hvalid).imp_of_mem (fun hhit hhit' hne => TimerStartHit.timerID_ne
      (hclash _ _ ((mem_timerStartDefs_iff hone).mp hhit) ((mem_timerStartDefs_iff hone).mp hhit')) hne)
  obtain ⟨i, hi⟩ := List.mem_iff_getElem?.mp ((mem_timerStartDefs_iff hone).mpr h)
  refine armed_under_own hids hi ?_
  rw [Nat.zero_add]
  exact hall (hit, i) (List.mk_mem_zipIdx_iff_getElem?.mpr hi)

theorem exactlyArmed_iff (hvalid : ∀ d ∈ listed, validateDefinition u d = .ok ()) (hone : OneEach listed)
    (hall : env.ArmsAll listed) (hown : OwnIDs armed) :
    ExactlyArmed (rehydrateStartTimers env listed armed) listed ↔ armed.Current listed ∧ NoClash listed := by
  constructor
  · intro h
    refine ⟨fun id hit hid => ?_, fun hit hit' hhit hhit' hclash => ?_⟩
    · by_contra hother
      have hsame := rehydrate_other env armed hone (fun hit' hhit' heq => hother ⟨hit', hhit', heq⟩)
      obtain ⟨hlatest, hid'⟩ := h.only id hit (hsame.trans hid)
      exact hother ⟨hit, hlatest, hid'.symm⟩
    · have hne : hit.key ≠ hit'.key := fun he => hit'.key.not_clashes_self (he ▸ hclash)
      exact h.apart hit hit' hhit hhit' hne (TimerStartHit.timerID_eq_iff.mpr (.inr hclash))
  · rintro ⟨hcurrent, hclash⟩
    refine ⟨fun hit hhit => rehydrate_own hvalid hone hall hclash hhit, fun id hit hid => ?_,
      fun hit hit' hhit hhit' hne => TimerStartHit.timerID_ne (hclash hit hit' hhit hhit') hne⟩
    have hid' := hown.rehydrate env listed id hit hid
    by_cases hother : ∃ hit', LatestStart listed hit' ∧ hit'.timerID = id
    · obtain ⟨hit', hhit', rfl⟩ := hother
      rw [rehydrate_own hvalid hone hall hclash hhit'] at hid
      cases hid
      exact ⟨hhit', rfl⟩
    · have hsame := rehydrate_other env armed hone (fun hit' hhit' heq => hother ⟨hit', hhit', heq⟩)
      exact absurd (hcurrent id hit (hsame.symm.trans hid)) hother

end Call

/-! ## Runs -/

/-- `ListDefinitions` gives the registered definitions, in any order. -/
def ListedStart (x : StartTimers) : StartTimersEvent → Prop
  | .rehydrate _ listed => listed.Perm x.defs
  | _ => True

/-- No call finds a job armed that the newest versions do not have, or two timer starts that clash. -/
def Unsuperseded (x : StartTimers) : StartTimersEvent → Prop
  | .rehydrate _ listed => listed.Perm x.defs ∧ x.armed.Current listed ∧ NoClash listed
  | _ => True

structure StartTimers.Kept (u : UnicodeTables) (x : StartTimers) : Prop where
  valid : ∀ d ∈ x.defs, validateDefinition u d = .ok ()
  one : OneEach x.defs
  own : OwnIDs x.armed

section Runs
variable {u : UnicodeTables} {x y : StartTimers} {event : StartTimersEvent} {events : List StartTimersEvent}
  {listed : List ProcessDefinition}

theorem StartTimers.Kept.of_perm (h : x.Kept u) (hperm : listed.Perm x.defs) :
    (∀ d ∈ listed, validateDefinition u d = .ok ()) ∧ OneEach listed :=
  ⟨fun d hd => h.valid d (hperm.mem_iff.mp hd), (hperm.map _).nodup_iff.mpr h.one⟩

theorem StartTimers.Kept.step (h : x.Kept u) (hstep : x.step u event = some y) : y.Kept u := by
  cases event with
  | register d =>
    unfold StartTimers.step at hstep
    dsimp only at hstep
    split at hstep
    · cases hstep
      exact h
    · next hvalid =>
      split at hstep
      · cases hstep
        exact h
      · next hnew =>
        cases hstep
        refine ⟨fun o ho => ?_, ?_, h.own⟩
        · rcases List.mem_append.mp ho with hold | hlast
          · exact h.valid o hold
          · rw [List.mem_singleton.mp hlast]
            exact hvalid
        · unfold OneEach
          rw [List.map_append, List.map_singleton, List.nodup_append]
          refine ⟨h.one, List.nodup_singleton _, fun q hq q' hq' heq => hnew ?_⟩
          obtain ⟨o, ho, rfl⟩ := List.mem_map.mp hq
          rw [List.mem_singleton.mp hq'] at heq
          exact List.any_eq_true.mpr ⟨o, ho, beq_iff_eq.mpr heq⟩
  | rehydrate env listed =>
    cases hstep
    exact ⟨h.valid, h.one, h.own.rehydrate env listed⟩
  | fire id ended =>
    unfold StartTimers.step at hstep
    dsimp only at hstep
    split at hstep
    · cases hstep
    · cases hstep
      refine ⟨h.valid, h.one, fun k hit hk => ?_⟩
      dsimp only at hk
      split at hk
      · cases hk
      · exact h.own k hit hk

/-- What is armed since a call that skipped nothing is of the versions that were the newest then. -/
def StartTimers.FollowsLatest (x : StartTimers) : Prop :=
  ∀ listed, x.seen = some listed → ∀ id hit, x.armed id = some hit → LatestStart listed hit ∧ id = hit.timerID

theorem StartTimers.FollowsLatest.step (hkept : x.Kept u) (h : x.FollowsLatest) (hmeets : Unsuperseded x event)
    (hstep : x.step u event = some y) : y.FollowsLatest := by
  cases event with
  | register d =>
    unfold StartTimers.step at hstep
    dsimp only at hstep
    split at hstep
    · cases hstep
      exact h
    · split at hstep
      · cases hstep
        exact h
      · cases hstep
        exact h
  | rehydrate env listed =>
    cases hstep
    obtain ⟨hperm, hcurrent, hclash⟩ := hmeets
    obtain ⟨hvalid, hone⟩ := hkept.of_perm hperm
    intro found hfound
    dsimp only at hfound
    split at hfound
    · next hall =>
      cases hfound
      exact ((exactlyArmed_iff hvalid hone hall hkept.own).mpr ⟨hcurrent, hclash⟩).only
    · cases hfound
  | fire id ended =>
    unfold StartTimers.step at hstep
    dsimp only at hstep
    split at hstep
    · cases hstep
    · cases hstep
      intro listed hseen k hit hk
      dsimp only at hk
      split at hk
      · cases hk
      · exact h listed hseen k hit hk

theorem runs_kept {P : StartTimers → StartTimersEvent → Prop}
    (hrun : Library.Runs (StartTimers.step u) P {} events x) : x.Kept u :=
  hrun.invariant ⟨nofun, List.nodup_nil, nofun⟩ (fun h _ hstep => h.step hstep)

end Runs

/-- From every state a process can come to, a call that skips nothing leaves armed exactly the timer starts of the newest
versions where what is armed is theirs and no two of their ids clash, and only there; in a run whose calls all meet that,
what is armed after such a call, and so what fires, is of the versions that were the newest then. -/
theorem start_timers_follow_latest (u : UnicodeTables) (events : List StartTimersEvent) (x : StartTimers) :
    (Library.Runs (StartTimers.step u) ListedStart {} events x →
      ∀ env listed, listed.Perm x.defs → env.ArmsAll listed →
        (ExactlyArmed (rehydrateStartTimers env listed x.armed) listed ↔ x.armed.Current listed ∧ NoClash listed)) ∧
    (Library.Runs (StartTimers.step u) Unsuperseded {} events x → x.FollowsLatest ∧
      ∀ env listed, listed.Perm x.defs → env.ArmsAll listed → x.armed.Current listed → NoClash listed →
        ExactlyArmed (rehydrateStartTimers env listed x.armed) listed) := by
  have hcall : ∀ {P : StartTimers → StartTimersEvent → Prop}, Library.Runs (StartTimers.step u) P {} events x →
      ∀ env listed, listed.Perm x.defs → env.ArmsAll listed →
        (ExactlyArmed (rehydrateStartTimers env listed x.armed) listed ↔ x.armed.Current listed ∧ NoClash listed) := by
    intro P hrun env listed hperm hall
    have hkept := runs_kept hrun
    obtain ⟨hvalid, hone⟩ := hkept.of_perm hperm
    exact exactlyArmed_iff hvalid hone hall hkept.own
  refine ⟨hcall, fun hrun => ⟨?_, fun env listed hperm hall hcurrent hclash =>
    (hcall hrun env listed hperm hall).mpr ⟨hcurrent, hclash⟩⟩⟩
  have hboth : x.Kept u ∧ x.FollowsLatest :=
    hrun.invariant (I := fun x => x.Kept u ∧ x.FollowsLatest) ⟨⟨nofun, List.nodup_nil, nofun⟩, nofun⟩
      (fun h hmeets hstep => ⟨h.1.step hstep, h.2.step h.1 hmeets hstep⟩)
  exact hboth.2

/-! ## A version that moves its timer start -/

theorem StartTimers.step_register {u : UnicodeTables} {x : StartTimers}
    (hvalid : validateDefinition u d = .ok ()) (hnew : x.defs.any (fun o => o.qualifier == d.qualifier) = false) :
    x.step u (.register d) = some { x with defs := x.defs ++ [d] } := by
  unfold StartTimers.step
  dsimp only
  rw [hvalid]
  dsimp only
  rw [hnew]
  rfl

/-- The hourly start is at `m` from version 2 on. -/
def hourlyMoved : ProcessDefinition := { hourly "a" "m" with version := 2 }

/-- The process after version 1 was registered and a call made. -/
def armedOnce : StartTimers where
  defs := [hourly "a" "n"]
  armed := rehydrateStartTimers openEnv [hourly "a" "n"] (fun _ => none)
  seen := some [hourly "a" "n"]

theorem armedOnce_runs {P : StartTimers → StartTimersEvent → Prop} (hregister : P {} (.register (hourly "a" "n")))
    (hcall : P { defs := [hourly "a" "n"] } (.rehydrate openEnv [hourly "a" "n"])) :
    Library.Runs (StartTimers.step asciiTables) P {}
      [.register (hourly "a" "n"), .rehydrate openEnv [hourly "a" "n"]] armedOnce := by
  have hfirst : Library.Runs (StartTimers.step asciiTables) P {} [.register (hourly "a" "n")] { defs := [hourly "a" "n"] } :=
    Library.Runs.refl.tail _ hregister (StartTimers.step_register (by decide) rfl)
  exact hfirst.tail (.rehydrate openEnv [hourly "a" "n"]) hcall rfl

theorem hourly_noClash : NoClash [hourly "a" "n"] := by
  have hone : OneEach [hourly "a" "n"] := List.nodup_singleton _
  intro hit hit' hhit hhit' hclash
  have h1 := (mem_timerStartDefs_iff hone).mpr hhit
  have h2 := (mem_timerStartDefs_iff hone).mpr hhit'
  have hstarts : timerStartDefs [hourly "a" "n"] = [⟨hourly "a" "n", "n", .every (3600 * second)⟩] := rfl
  rw [hstarts, List.mem_singleton] at h1 h2
  rw [h1, h2] at hclash
  exact StartKey.not_clashes_self _ hclash

theorem armedOnce_current : armedOnce.armed.Current [hourly "a" "n"] := by
  have hvalid : ∀ d ∈ [hourly "a" "n"], validateDefinition asciiTables d = .ok () := by decide
  have hone : OneEach [hourly "a" "n"] := List.nodup_singleton _
  have hall : openEnv.ArmsAll [hourly "a" "n"] := by decide
  have hempty : OwnIDs (fun _ => none) := nofun
  have hexact : ExactlyArmed armedOnce.armed [hourly "a" "n"] :=
    (exactlyArmed_iff hvalid hone hall hempty).mpr ⟨nofun, hourly_noClash⟩
  intro id hit hid
  obtain ⟨hlatest, hid'⟩ := hexact.only id hit hid
  exact ⟨hit, hlatest, hid'.symm⟩

/-- One version is registered: its timer start is armed by the first call, and exactly so by the second. -/
theorem first_version_exact :
    ∃ events, Library.Runs (StartTimers.step asciiTables) Unsuperseded {} events armedOnce ∧ armedOnce.FollowsLatest ∧
      ExactlyArmed (rehydrateStartTimers openEnv [hourly "a" "n"] armedOnce.armed) [hourly "a" "n"] := by
  have hrun := armedOnce_runs (P := Unsuperseded) trivial ⟨List.Perm.refl _, nofun, hourly_noClash⟩
  obtain ⟨hfollows, hexact⟩ := (start_timers_follow_latest asciiTables _ armedOnce).2 hrun
  exact ⟨_, hrun, hfollows, hexact openEnv _ (List.Perm.refl _) (by decide) armedOnce_current hourly_noClash⟩

/-- Version 2 moves the timer start. The call after its registration skips nothing, and the job of version 1 is armed still
and can fire. -/
theorem superseded_start_armed :
    ∃ x, Library.Runs (StartTimers.step asciiTables) ListedStart {}
      [.register (hourly "a" "n"), .rehydrate openEnv [hourly "a" "n"],
          .register hourlyMoved, .rehydrate openEnv [hourly "a" "n", hourlyMoved]] x ∧
      x.seen = some x.defs ∧
      (x.armed (startTimerID "a" 1 "n")).map (fun hit => (hit.defn.id, hit.defn.version)) = some ("a", 1) ∧
      (∃ y, x.step asciiTables (.fire (startTimerID "a" 1 "n") false) = some y) ∧ ¬ ExactlyArmed x.armed x.defs := by
  let defs := [hourly "a" "n", hourlyMoved]
  let x : StartTimers := ⟨defs, rehydrateStartTimers openEnv defs armedOnce.armed, some defs⟩
  have hrun := ((armedOnce_runs (P := ListedStart) trivial (List.Perm.refl _)).tail (.register hourlyMoved) trivial
    (StartTimers.step_register (by decide) rfl)).tail (z := x) (.rehydrate openEnv defs) (List.Perm.refl _) rfl
  have hold : (x.armed (startTimerID "a" 1 "n")).map (fun hit => (hit.defn.id, hit.defn.version)) = some ("a", 1) := rfl
  obtain ⟨hit, hhit, hversion⟩ := Option.map_eq_some_iff.mp hold
  refine ⟨x, hrun, rfl, hold, ⟨_, by unfold StartTimers.step; dsimp only; rw [hhit]⟩, fun hexact => ?_⟩
  obtain ⟨⟨d, ⟨_, hnewest⟩, hmem⟩, -⟩ := hexact.only _ hit hhit
  rw [(mem_timerStarts hmem).1] at hversion
  have hle := hnewest hourlyMoved (List.mem_cons_of_mem _ List.mem_cons_self) (Prod.mk.inj hversion).1.symm
  rw [(Prod.mk.inj hversion).2] at hle
  exact absurd hle (by decide)

end Wrkflw
