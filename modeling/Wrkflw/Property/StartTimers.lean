import Wrkflw.Runtime.StartTimers
import Wrkflw.Library.Text

/-!
# The ids of timer starts

The id of a timer start is a flat join of three parts, two of which may have the separator in them. Two timer starts have
one id exactly where one's definition id reads on into the other's node id, and then the later arm takes the place of the
earlier.

* `StartKey.Clashes`, `startTimerID_eq_iff` : which timer starts have one id;
* `armed_once` : along the arms of one call, a timer start whose id is its own stays armed;
* `start_timers_armed_iff` : every timer start is armed under its own id where no two of them clash, and only there.
-/

namespace Wrkflw

/-! ## Ids -/

/-- What the id of a timer start is made of. -/
structure StartKey where
  defID : String
  version : Int
  nodeID : String
  deriving DecidableEq

def StartKey.timerID (k : StartKey) : String := startTimerID k.defID k.version k.nodeID

/-- The second definition's id is the first one's with its version, and the first node's id is the rest; or it goes on with
some of the first node's id. -/
def StartKey.ReadsInto (k k' : StartKey) : Prop :=
  (k'.defID = k.defID ++ ":" ++ toString k.version ∧ k.nodeID = toString k'.version ++ ":" ++ k'.nodeID) ∨
    ∃ r, k'.defID = k.defID ++ ":" ++ toString k.version ++ ":" ++ r ∧
      k.nodeID = r ++ ":" ++ toString k'.version ++ ":" ++ k'.nodeID

def StartKey.Clashes (k k' : StartKey) : Prop := k.ReadsInto k' ∨ k'.ReadsInto k

/-- Two joins of three parts are one, though the first parts are not of one length. -/
theorem join_cases {α : Type} [DecidableEq α] {sep : α} {v w n m e : List α} (hv : sep ∉ v) (hw : sep ∉ w)
    (h : sep :: (v ++ sep :: n) = e ++ sep :: (w ++ sep :: m)) :
    (e = [] ∧ v = w ∧ n = m) ∨ (e = sep :: v ∧ n = w ++ sep :: m) ∨
      ∃ r, e = sep :: (v ++ sep :: r) ∧ n = r ++ sep :: (w ++ sep :: m) := by
  cases e with
  | nil =>
    obtain ⟨hvw, hnm⟩ := Library.append_cons_inj hv hw (List.cons.inj h).2
    exact .inl ⟨rfl, hvw, hnm⟩
  | cons c y =>
    rw [List.cons_append] at h
    obtain ⟨rfl, hrest⟩ := List.cons.inj h
    by_cases hy : sep ∈ y
    · obtain ⟨y1, r, rfl, hy1⟩ := List.eq_append_cons_of_mem hy
      rw [List.append_assoc, List.cons_append] at hrest
      obtain ⟨rfl, hn⟩ := Library.append_cons_inj hv hy1 hrest
      exact .inr (.inr ⟨r, rfl, hn⟩)
    · obtain ⟨rfl, hn⟩ := Library.append_cons_inj hv hy hrest
      exact .inr (.inl ⟨rfl, hn⟩)

theorem toList_timerID (k : StartKey) : k.timerID.toList = ("start-timer:" : String).toList ++
    (k.defID.toList ++ ':' :: ((toString k.version).toList ++ ':' :: k.nodeID.toList)) := by
  have hsep : (":" : String).toList = [':'] := rfl
  unfold StartKey.timerID startTimerID
  simp only [String.toList_append, hsep, List.append_assoc, List.cons_append, List.nil_append]

/-- The texts of one length of the definition's id are in the first case, the others in the second and third. -/
theorem readsInto_of_append {k k' : StartKey} {e : List Char} (hid : k'.defID.toList = k.defID.toList ++ e)
    (h : ':' :: ((toString k.version).toList ++ ':' :: k.nodeID.toList) =
      e ++ ':' :: ((toString k'.version).toList ++ ':' :: k'.nodeID.toList)) : k = k' ∨ k.ReadsInto k' := by
  have hsep : (":" : String).toList = [':'] := rfl
  rcases join_cases (Library.colon_notMem_toString _) (Library.colon_notMem_toString _) h with
    ⟨rfl, hv, hn⟩ | ⟨rfl, hn⟩ | ⟨r, rfl, hn⟩
  · left
    rw [List.append_nil] at hid
    cases k
    cases k'
    cases String.toList_inj.mp hid
    cases Library.toString_int_inj (String.toList_inj.mp hv)
    cases String.toList_inj.mp hn
    rfl
  · right
    refine .inl ⟨String.toList_inj.mp ?_, String.toList_inj.mp ?_⟩
    · simp only [String.toList_append, hsep, hid, List.append_assoc, List.cons_append, List.nil_append]
    · simp only [String.toList_append, hsep, hn, List.append_assoc, List.cons_append, List.nil_append]
  · right
    refine .inr ⟨String.ofList r, String.toList_inj.mp ?_, String.toList_inj.mp ?_⟩
    · simp only [String.toList_append, String.toList_ofList, hsep, hid, List.append_assoc, List.cons_append, List.nil_append]
    · simp only [String.toList_append, String.toList_ofList, hsep, hn, List.append_assoc, List.cons_append, List.nil_append]

theorem StartKey.ReadsInto.timerID_eq {k k' : StartKey} (h : k.ReadsInto k') : k.timerID = k'.timerID := by
  unfold StartKey.timerID startTimerID
  rcases h with ⟨hid, hn⟩ | ⟨r, hid, hn⟩
  · rw [hid, hn]
    simp only [String.append_assoc]
  · rw [hid, hn]
    simp only [String.append_assoc]

/-- **Two timer starts have one id** when they are one, or one's definition id reads on into the other's node id. -/
theorem startTimerID_eq_iff {k k' : StartKey} : k.timerID = k'.timerID ↔ k = k' ∨ k.Clashes k' := by
  constructor
  · intro h
    have hlist := congrArg String.toList h
    rw [toList_timerID, toList_timerID] at hlist
    rcases List.append_eq_append_iff.mp (List.append_cancel_left hlist) with ⟨e, hid, hrest⟩ | ⟨e, hid, hrest⟩
    · exact (readsInto_of_append hid hrest).imp_right .inl
    · exact (readsInto_of_append hid hrest).imp Eq.symm .inr
  · rintro (rfl | h | h)
    · rfl
    · exact h.timerID_eq
    · exact h.timerID_eq.symm

/-! ## The timer starts of a registry -/

def TimerStartHit.key (hit : TimerStartHit) : StartKey := ⟨hit.defn.id, hit.defn.version, hit.nodeID⟩

theorem TimerStartHit.timerID_eq_iff {hit hit' : TimerStartHit} :
    hit.timerID = hit'.timerID ↔ hit.key = hit'.key ∨ hit.key.Clashes hit'.key := by
  rw [← startTimerID_eq_iff]
  rfl

/-- The newest definitions are registered, one for an id. -/
theorem latestPerID_spec (defs : List ProcessDefinition) :
    (∀ d ∈ latestPerID defs, d ∈ defs) ∧ ((latestPerID defs).map (·.id)).Nodup := by
  unfold latestPerID
  induction defs using List.reverseRecOn with
  | nil => exact ⟨nofun, List.nodup_nil⟩
  | append_singleton defs d ih =>
    rw [List.foldl_append, List.foldl_cons, List.foldl_nil]
    generalize defs.foldl _ [] = out at ih ⊢
    obtain ⟨hmem, hnodup⟩ := ih
    split
    · constructor
      · intro o ho
        obtain ⟨o', ho', rfl⟩ := List.mem_map.mp ho
        split
        · exact List.mem_append_right _ (List.mem_singleton.mpr rfl)
        · exact List.mem_append_left _ (hmem o' ho')
      · -- a definition takes the place of one of its own id
        have hids : (out.map (fun o => if o.id == d.id && decide (o.version < d.version) then d else o)).map (·.id) =
            out.map (·.id) := by
          rw [List.map_map]
          refine List.map_congr_left (fun o _ => ?_)
          change (if o.id == d.id && decide (o.version < d.version) then d else o).id = o.id
          split
          · rename_i hcond
            rw [Bool.and_eq_true, beq_iff_eq] at hcond
            exact hcond.1.symm
          · rfl
        rw [hids]
        exact hnodup
    · rename_i hnew
      constructor
      · intro o ho
        rcases List.mem_append.mp ho with ho | ho
        · exact List.mem_append_left _ (hmem o ho)
        · exact List.mem_append_right _ ho
      · rw [List.map_append, List.map_singleton, List.nodup_append]
        refine ⟨hnodup, List.nodup_singleton _, fun id hid id' hid' he => hnew ?_⟩
        obtain ⟨o, ho, rfl⟩ := List.mem_map.mp hid
        rw [List.mem_singleton.mp hid'] at he
        exact List.any_eq_true.mpr ⟨o, ho, beq_iff_eq.mpr he⟩

theorem mem_timerStarts {d : ProcessDefinition} {hit : TimerStartHit} (h : hit ∈ d.timerStarts) :
    hit.defn = d ∧ ∃ n ∈ d.nodes, hit.nodeID = n.id := by
  obtain ⟨n, hn, hhit⟩ := List.mem_filterMap.mp h
  split at hhit
  · split at hhit
    · cases hhit
    · cases hhit
      exact ⟨rfl, n, List.mem_of_mem_filter hn, rfl⟩
  · cases hhit

/-- No id is listed twice. -/
theorem nodup_of_duplicates : ∀ {ids seen : List String}, duplicates seen ids = [] → ids.Nodup ∧ ∀ id ∈ ids, id ∉ seen := by
  intro ids
  induction ids with
  | nil => exact fun _ => ⟨List.nodup_nil, nofun⟩
  | cons id ids ih =>
    intro seen h
    unfold duplicates at h
    split at h
    · cases h
    · rename_i hseen
      obtain ⟨hnodup, hnew⟩ := ih h
      refine ⟨List.nodup_cons.mpr ⟨fun hm => hnew id hm List.mem_cons_self, hnodup⟩, fun id' hid' => ?_⟩
      rcases List.mem_cons.mp hid' with rfl | hid'
      · simpa using hseen
      · exact fun hm => hnew id' hid' (List.mem_cons_of_mem _ hm)

theorem nodes_nodup {u : UnicodeTables} {d : ProcessDefinition} (h : validateDefinition u d = .ok ()) :
    (d.nodes.map (·.id)).Nodup := by
  have hvalid : validate u d = [] := by
    unfold validateDefinition at h
    split_ifs at h with _ _ _ _ hdefects
    simpa using hdefects
  have hids : checkIDs d = [] := by
    obtain ⟨id, version, nodes, flows, cancelActions⟩ := d
    unfold validate validateStructure checkLevel at hvalid
    simp only [List.append_eq_nil_iff, and_assoc] at hvalid
    exact hvalid.2.1
  unfold checkIDs at hids
  exact (nodup_of_duplicates (List.map_eq_nil_iff.mp (List.append_eq_nil_iff.mp hids).1)).1

/-- The timer start a node is. -/
def timerStartOf (d : ProcessDefinition) (n : Node) : Option TimerStartHit :=
  match n.spec with
  | .startEvent e => if e.timer.isZero then none else some ⟨d, n.id, e.timer⟩
  | _ => none

/-- The timer starts that are armed are of different keys. -/
theorem timerStartDefs_keys {u : UnicodeTables} {defs : List ProcessDefinition}
    (hvalid : ∀ d ∈ defs, validateDefinition u d = .ok ()) :
    (timerStartDefs defs).Pairwise (fun hit hit' => hit.key ≠ hit'.key) := by
  obtain ⟨hmem, hnodup⟩ := latestPerID_spec defs
  unfold timerStartDefs
  rw [List.pairwise_flatMap]
  constructor
  · intro d hd
    have hnodes : d.startNodes.Pairwise (fun n n' => n.id ≠ n'.id) :=
      (List.pairwise_map.mp (nodes_nodup (hvalid d (hmem d hd)))).sublist List.filter_sublist
    refine hnodes.filterMap _ (fun n n' hne hit hhit hit' hhit' he => hne ?_)
    have hid : ∀ {n : Node} {hit : TimerStartHit}, timerStartOf d n = some hit → n.id = hit.nodeID := by
      intro n hit h
      unfold timerStartOf at h
      split at h
      · split at h
        · cases h
        · cases h
          rfl
      · cases h
    exact (hid hhit).trans ((congrArg StartKey.nodeID he).trans (hid hhit').symm)
  · refine (List.pairwise_map.mp hnodup).imp (fun {d d'} hne hit hhit hit' hhit' he => hne ?_)
    rw [← (mem_timerStarts hhit).1, ← (mem_timerStarts hhit').1]
    exact congrArg StartKey.defID he

/-! ## Arming -/

/-- Every job is armed under the id of its timer start. -/
def OwnIDs (armed : ArmedStarts) : Prop := ∀ id hit, armed id = some hit → id = hit.timerID

/-- The timer start is armed, under its id and no other. -/
def ArmedOnce (armed : ArmedStarts) (hit : TimerStartHit) : Prop :=
  armed hit.timerID = some hit ∧ ∀ id, armed id = some hit → id = hit.timerID

section Arming
variable {env : ArmEnv} {armed : ArmedStarts} {hits : List TimerStartHit} {hit : TimerStartHit} {i j : Nat}

theorem OwnIDs.arm (h : OwnIDs armed) (env : ArmEnv) (i : Nat) (hit : TimerStartHit) :
    OwnIDs (armStartTimer env armed i hit) := by
  intro id hit' hid
  unfold armStartTimer at hid
  split at hid
  · dsimp only at hid
    split at hid
    · cases hid
      assumption
    · exact h id hit' hid
  · exact h id hit' hid

theorem OwnIDs.arms (h : OwnIDs armed) : OwnIDs (armStartTimers env hits i armed) := by
  induction hits generalizing i armed with
  | nil => exact h
  | cons hit hits ih => exact ih (h.arm env i hit)

theorem OwnIDs.rehydrate (h : OwnIDs armed) (env : ArmEnv) (defs : List ProcessDefinition) :
    OwnIDs (rehydrateStartTimers env defs armed) := h.arms

theorem armStartTimer_other {id : String} (h : id ≠ hit.timerID) : armStartTimer env armed i hit id = armed id := by
  unfold armStartTimer
  split
  · exact if_neg h
  · rfl

theorem armStartTimers_other {id : String} (h : ∀ hit ∈ hits, id ≠ hit.timerID) :
    armStartTimers env hits i armed id = armed id := by
  induction hits generalizing i armed with
  | nil => rfl
  | cons hit hits ih =>
    unfold armStartTimers
    rw [ih (fun hit' hhit' => h hit' (List.mem_cons_of_mem _ hhit')), armStartTimer_other (h hit List.mem_cons_self)]

/-- A job that is armed stays armed, where no later one has its id. -/
theorem armed_under_own (hids : hits.Pairwise (fun hit hit' => hit.timerID ≠ hit'.timerID)) (hget : hits[j]? = some hit)
    (hsched : env.schedules (i + j) hit = true) : armStartTimers env hits i armed hit.timerID = some hit := by
  induction hits generalizing i j armed with
  | nil => cases hget
  | cons first hits ih =>
    rw [List.pairwise_cons] at hids
    cases j with
    | zero =>
      cases hget
      unfold armStartTimers
      rw [armStartTimers_other (fun hit' hhit' => hids.1 hit' hhit')]
      unfold armStartTimer
      rw [if_pos (show env.schedules i hit = true from hsched), if_pos rfl]
    | succ j =>
      refine ih hids.2 hget ?_
      rw [Nat.add_assoc, Nat.add_comm 1]
      exact hsched

end Arming

theorem TimerStartHit.timerID_ne {hit hit' : TimerStartHit} (h : ¬ hit.key.Clashes hit'.key) (hne : hit.key ≠ hit'.key) :
    hit.timerID ≠ hit'.timerID := fun he => (TimerStartHit.timerID_eq_iff.mp he).elim hne h

theorem StartKey.not_clashes_self (k : StartKey) : ¬ k.Clashes k := by
  have hlen : ∀ s : String, k.defID ≠ k.defID ++ ":" ++ s := by
    intro s he
    have := congrArg String.length he
    rw [String.length_append, String.length_append] at this
    have hone : (":" : String).length = 1 := rfl
    omega
  have hself : ¬ k.ReadsInto k := by
    rintro (⟨hid, -⟩ | ⟨r, hid, -⟩)
    · exact hlen _ hid
    · exact hlen (toString k.version ++ ":" ++ r) (hid.trans (by simp only [String.append_assoc]))
  rintro (h | h)
  · exact hself h
  · exact hself h

/-- **Every timer start is armed under an id of its own, once, where no two of the registered ones clash, and only there.** -/
theorem start_timers_armed_iff {u : UnicodeTables} (env : ArmEnv) {defs : List ProcessDefinition} {armed : ArmedStarts}
    (hvalid : ∀ d ∈ defs, validateDefinition u d = .ok ()) (hown : OwnIDs armed) :
    ((∀ hit ∈ defs.flatMap (·.timerStarts), ∀ hit' ∈ defs.flatMap (·.timerStarts),
        hit.key ≠ hit'.key → hit.timerID ≠ hit'.timerID) ∧
      ∀ i hit, (timerStartDefs defs)[i]? = some hit → env.schedules i hit = true →
        ArmedOnce (rehydrateStartTimers env defs armed) hit) ↔
    ∀ hit ∈ defs.flatMap (·.timerStarts), ∀ hit' ∈ defs.flatMap (·.timerStarts), ¬ hit.key.Clashes hit'.key := by
  have hregistered : ∀ hit ∈ timerStartDefs defs, hit ∈ defs.flatMap (·.timerStarts) := by
    intro hit hhit
    obtain ⟨d, hd, hmem⟩ := List.mem_flatMap.mp hhit
    exact List.mem_flatMap.mpr ⟨d, (latestPerID_spec defs).1 d hd, hmem⟩
  constructor
  · rintro ⟨hids, -⟩ hit hhit hit' hhit' hclash
    have hne : hit.key ≠ hit'.key := fun he => hit'.key.not_clashes_self (he ▸ hclash)
    exact hids hit hhit hit' hhit' hne (TimerStartHit.timerID_eq_iff.mpr (.inr hclash))
  · intro hclash
    refine ⟨fun hit hhit hit' hhit' hne => TimerStartHit.timerID_ne (hclash hit hhit hit' hhit') hne, ?_⟩
    intro i hit hget hsched
    have hids : (timerStartDefs defs).Pairwise (fun hit hit' => hit.timerID ≠ hit'.timerID) :=
      (timerStartDefs_keys hvalid).imp_of_mem (fun hhit hhit' hne =>
        TimerStartHit.timerID_ne (hclash _ (hregistered _ hhit) _ (hregistered _ hhit')) hne)
    refine ⟨armed_under_own hids hget ?_, fun id hid => hown.rehydrate env defs id hit hid⟩
    rw [Nat.zero_add]
    exact hsched

/-! ## One id for two timer starts -/

/-- A timer start, every hour, and an end. -/
def hourly (id start : String) : ProcessDefinition where
  id := id
  version := 1
  nodes := [{ id := start, spec := .startEvent { timer := .every (3600 * second) } }, { id := "e", spec := .endEvent {} }]
  flows := [{ id := "f", source := start, target := "e" }]

/-- A scheduler that takes every job, at the time 1. -/
def openEnv : ArmEnv where
  cronNext := fun _ _ _ => none
  zone := {}
  now := fun _ => 1
  schedulerNow := fun _ => 1
  closed := fun _ => false
  accepts := fun _ => true

/-- The timer start `n` of `a:1` takes the place of the timer start `1:n` of `a`. -/
theorem colon_start_replaced :
    (∀ d ∈ [hourly "a" "1:n", hourly "a:1" "n"], validateDefinition asciiTables d = .ok ()) ∧
    ∃ hit hit' : TimerStartHit, timerStartDefs [hourly "a" "1:n", hourly "a:1" "n"] = [hit, hit'] ∧
      openEnv.schedules 0 hit = true ∧ openEnv.schedules 1 hit' = true ∧
      hit.key ≠ hit'.key ∧ hit.timerID = hit'.timerID ∧
      ¬ ArmedOnce (rehydrateStartTimers openEnv [hourly "a" "1:n", hourly "a:1" "n"] (fun _ => none)) hit := by
  refine ⟨by decide, ⟨hourly "a" "1:n", "1:n", .every (3600 * second)⟩, ⟨hourly "a:1" "n", "n", .every (3600 * second)⟩,
    by rfl, by decide, by decide, by decide, by decide, ?_⟩
  rintro ⟨harmed, -⟩
  have hid : (rehydrateStartTimers openEnv [hourly "a" "1:n", hourly "a:1" "n"] (fun _ => none)
      (startTimerID "a" 1 "1:n")).map (·.nodeID) = some "n" := by rfl
  have hother := congrArg (Option.map (·.nodeID)) harmed
  exact absurd (hid.symm.trans hother) (by decide)

/-- Two definitions whose ids have no colon: both are armed. -/
theorem plain_starts_armed :
    (∃ hit, (timerStartDefs [hourly "a" "n", hourly "b" "n"])[0]? = some hit ∧
      ArmedOnce (rehydrateStartTimers openEnv [hourly "a" "n", hourly "b" "n"] (fun _ => none)) hit) ∧
    ∃ hit, (timerStartDefs [hourly "a" "n", hourly "b" "n"])[1]? = some hit ∧
      ArmedOnce (rehydrateStartTimers openEnv [hourly "a" "n", hourly "b" "n"] (fun _ => none)) hit := by
  have hvalid : ∀ d ∈ [hourly "a" "n", hourly "b" "n"], validateDefinition asciiTables d = .ok () := by decide
  have hown : OwnIDs (fun _ => none) := nofun
  have hids : ∀ hit ∈ [hourly "a" "n", hourly "b" "n"].flatMap (·.timerStarts),
      ∀ hit' ∈ [hourly "a" "n", hourly "b" "n"].flatMap (·.timerStarts), hit.timerID = hit'.timerID → hit.key = hit'.key := by
    decide
  have harmed := ((start_timers_armed_iff openEnv hvalid hown).mpr (fun hit hhit hit' hhit' hclash => by
    have hkey := hids hit hhit hit' hhit' (TimerStartHit.timerID_eq_iff.mpr (.inr hclash))
    exact hit'.key.not_clashes_self (hkey ▸ hclash))).2
  exact ⟨⟨_, rfl, harmed 0 _ rfl rfl⟩, ⟨_, rfl, harmed 1 _ rfl rfl⟩⟩

end Wrkflw
