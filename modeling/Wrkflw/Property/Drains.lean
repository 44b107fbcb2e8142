import Wrkflw.Machine.Awaits
import Wrkflw.Property.CallOutcome
import Wrkflw.Runtime.Drains

/-!
# A child's end is told once

However the drains, the calls and the crashes are interleaved, a live parent is told once of its child's end, and a link is
marked only when the parent awaits its command no longer.

Every stored state comes later than the ones before it (`MemInstanceStore.Grows`), so what is settled in an instance stays
so. A call that tells a parent of a child's end comes to nothing, or leaves the command settled (`Delivery.Tells`).
-/

namespace Wrkflw

variable {gen : Option IDGenerator} {version : Nat} {commands : List Command} {choice : Choice gen}

/-! ## Prepared steps -/

section Prepare
variable {driver : ProcessDriver gen} {fuel n : Nat} {d : ProcessDefinition} {s : InstanceState} {t : Trigger}
  {r : StepResult} {outcome : Option CallOutcome} {id cmdID : String}

theorem runIDs_clear (hgen : ∀ g ∈ gen, g.ClearOfGateways) (inst : String) : (runIDs gen inst).ClearOfGateways := by
  unfold runIDs
  cases gen with
  | none => exact counterIDs_clear inst
  | some g => exact hgen g rfl

theorem stepOptions_ids (hs : Steps.Sound gen id s) : (driver.stepOptions d s t).ids s.instanceID = runIDs gen id := by
  unfold StepOptions.ids runIDs
  rw [hs.instanceID]
  rfl

variable (hgen : ∀ g ∈ gen, g.ClearOfGateways) (hsound : Steps.Sound gen id s) (hs : s.Waits (runIDs gen id))
include hgen hsound hs

/-- What a prepared step does to what tokens wait for. -/
theorem prepare_later (h : driver.prepare fuel d s t = some (.ok (r, outcome))) :
    r.state.Waits (runIDs gen id) ∧ s.Later (runIDs gen id) r.state ∧
      ∀ cmd ∈ r.commands, ∀ cmdID, cmd.Starts cmdID → Minted (runIDs gen id) .command r.state.cmdSeq cmdID := by
  obtain ⟨r0, hstep, ⟨tasks, hstate⟩, hcmds, -⟩ := prepare_ok h
  have hids : (driver.stepOptions d s t).ids s.instanceID = runIDs gen id := stepOptions_ids hsound
  have hclear := hids ▸ runIDs_clear hgen id
  have hwaits := step_waits hclear hsound.wf.phase.status.mp (hids ▸ hs) hstep
  have hlater := step_later hclear hsound.wf.phase.status.mp (hids ▸ hs) hstep
  rw [hids] at hwaits hlater
  have hdesk : r.state.desk = { r0.state.desk with tasks := tasks } := by
    rw [hstate]
    rfl
  have hstatus : r.state.status = r0.state.status := by rw [hstate]
  refine ⟨hwaits.of_tasks hdesk, ⟨?_, fun cmdID hset => (hlater.settled cmdID hset).of_tasks hdesk hstatus⟩, ?_⟩
  · rw [hstate]
    exact hlater.seq
  · intro cmd hmem cmdID hstarts
    rw [hcmds] at hmem
    have hmint := step_starts hclear hsound.wf.phase.status.mp (hids ▸ hs) hstep hmem hstarts
    rw [hids] at hmint
    rw [hstate]
    exact hmint

/-- A prepared step that tells a live instance of a child's end. -/
theorem prepare_settles (hlive : s.status.isTerminal = false)
    (htrg : t.body.childCommand = some ((runIDs gen id).newID .command n))
    (h : driver.prepare fuel d s t = some (.ok (r, outcome))) :
    (∃ tok ∈ s.tokens, tok.awaitCommand = (runIDs gen id).newID .command n) ∧
      r.state.Settled (runIDs gen id) ((runIDs gen id).newID .command n) := by
  obtain ⟨r0, hstep, ⟨tasks, hstate⟩, -⟩ := prepare_ok h
  have hids : (driver.stepOptions d s t).ids s.instanceID = runIDs gen id := stepOptions_ids hsound
  have hsettles := step_childEnd (hids ▸ runIDs_clear hgen id) (hids ▸ hs) hlive (by rw [hids]; exact htrg) hstep
  rw [hids] at hsettles
  have hdesk : r.state.desk = { r0.state.desk with tasks := tasks } := by
    rw [hstate]
    rfl
  exact ⟨hsettles.1, hsettles.2.of_tasks hdesk (by rw [hstate])⟩

omit hgen hsound hs in
/-- A prepared step that refuses a child's end for want of a token. -/
theorem prepare_lacks {e : DriverError} (htrg : t.body.childCommand = some cmdID)
    (h : driver.prepare fuel d s t = some (.error e)) (hkind : e.kind = some .tokenNotFound) :
    ∀ tok ∈ s.tokens, tok.awaitCommand ≠ cmdID := by
  unfold ProcessDriver.prepare at h
  split at h
  · cases h
    cases hkind
  · split at h
    · rename_i e0 hstep
      split at h
      · cases h
      · cases h
        exact step_lacks htrg hstep (Option.some.inj hkind)
    · rename_i r0 hstep
      have hdo := Option.some.inj h
      cases hvalid : validateTaskCommands r0.commands with
      | error e' =>
        rw [hvalid] at hdo
        cases hdo
        rw [(validateTaskCommands_error hvalid).2] at hkind
        cases hkind
      | ok u =>
        cases hres : driver.resolveHumanCandidates r0.state r0.commands with
        | error e' =>
          rw [hvalid, hres] at hdo
          cases hdo
          rw [(resolveHumanCandidates_error hres).2] at hkind
          cases hkind
        | ok state =>
          rw [hvalid, hres] at hdo
          cases hdo

end Prepare

/-! ## Stores -/

/-- The instance is stored in a state with the property. -/
def MemInstanceStore.Has (m : MemInstanceStore) (id : String) (P : InstanceState → Prop) : Prop :=
  ∃ inst, m.instances id = some inst ∧ P inst.state

/-- The parent of the link has minted its command. -/
def CallLink.Minted (gen : Option IDGenerator) (m : MemInstanceStore) (link : CallLink) : Prop :=
  m.Has link.parentInstanceID
    (fun x => Wrkflw.Minted (runIDs gen link.parentInstanceID) .command x.cmdSeq link.parentCommandID)

/-- The parent of the link awaits its command no longer. -/
def CallLink.Settled (gen : Option IDGenerator) (m : MemInstanceStore) (link : CallLink) : Prop :=
  m.Has link.parentInstanceID (·.Settled (runIDs gen link.parentInstanceID) link.parentCommandID)

/-- Every instance is stored as it was, or in a later state under a later version. -/
def MemInstanceStore.Grows (gen : Option IDGenerator) (m m' : MemInstanceStore) : Prop :=
  ∀ id inst, m.instances id = some inst → ∃ inst', m'.instances id = some inst' ∧
    inst.state.Later (runIDs gen id) inst'.state ∧ inst.version ≤ inst'.version ∧
      (inst.version = inst'.version → inst'.state = inst.state)

/-- Each link is about a child that is stored, under a command its parent has minted, and no child has two. -/
structure MemInstanceStore.Tracks (gen : Option IDGenerator) (m : MemInstanceStore) : Prop where
  minted : ∀ k ∈ m.callLinks.getD [], k.link.Minted gen m
  stored : ∀ k ∈ m.callLinks.getD [], m.Has k.link.childInstanceID (fun _ => True)
  distinct : ∀ k ∈ m.callLinks.getD [], ∀ k' ∈ m.callLinks.getD [], k.link.childInstanceID = k'.link.childInstanceID →
    k.link = k'.link

section Stores
variable {m m' : MemInstanceStore} {link : CallLink} {l : Loop} {id : String}

theorem MemInstanceStore.Grows.of_eq (h : m'.instances = m.instances) : m.Grows gen m' := by
  intro id inst hinst
  exact ⟨inst, h ▸ hinst, .refl _ _, le_rfl, fun _ => rfl⟩

theorem MemInstanceStore.Grows.has (h : m.Grows gen m') {P : InstanceState → Prop}
    (hP : ∀ {x x' : InstanceState}, x.Later (runIDs gen id) x' → P x → P x') (hm : m.Has id P) : m'.Has id P := by
  obtain ⟨inst, hinst, hx⟩ := hm
  obtain ⟨inst', hinst', hlater, -⟩ := h id inst hinst
  exact ⟨inst', hinst', hP hlater hx⟩

theorem CallLink.Minted.grows (hlink : link.Minted gen m) (h : m.Grows gen m') : link.Minted gen m' :=
  h.has (fun hlater hx => hx.mono hlater.seq) hlink

theorem CallLink.Settled.grows (hlink : link.Settled gen m) (h : m.Grows gen m') : link.Settled gen m' :=
  h.has (fun hlater hx => hlater.settled _ hx) hlink

/-! ## Loops -/

/-- The state of a loop is one that waits rightly, and was stored, if the loop did not just begin. -/
structure Loop.Minds (gen : Option IDGenerator) (m : MemInstanceStore) (id : String) (l : Loop) : Prop where
  waits : l.st.Waits (runIDs gen id)
  links : ∀ link ∈ l.firstCallLink, link.childInstanceID = id ∧ link.Minted gen m
  stored : l.create = false → ∃ inst, m.instances id = some inst ∧ l.st.Later (runIDs gen id) inst.state ∧
    l.token ≤ inst.version ∧ (l.token = inst.version → inst.state = l.st)

theorem Loop.Minds.grows (hl : l.Minds gen m id) (h : m.Grows gen m') : l.Minds gen m' id where
  waits := hl.waits
  links := fun link hlink => ⟨(hl.links link hlink).1, (hl.links link hlink).2.grows h⟩
  stored := by
    intro hcreate
    obtain ⟨inst, hinst, hlater, hle, hsame⟩ := hl.stored hcreate
    obtain ⟨inst', hinst', hlater', hle', hsame'⟩ := h id inst hinst
    refine ⟨inst', hinst', hlater.trans hlater', hle.trans hle', fun he => ?_⟩
    have hv : l.token = inst.version := by omega
    rw [hsame' (hv ▸ he), hsame hv]

theorem Loop.Minds.append (hl : l.Minds gen m id) (t : Option Trigger) : (l.append t).Minds gen m id :=
  ⟨hl.waits, hl.links, hl.stored⟩

/-- A commit finds the state its loop holds. -/
theorem Loop.Minds.found {t : Trigger} {r : StepResult} {outcome : Option CallOutcome} (hl : l.Minds gen m id)
    (hid : r.state.instanceID = id) (h : Delivery.writes m l t r outcome = .ok (m', version)) :
    (l.create = true ∧ m.instances id = none) ∨ (l.create = false ∧ m.instances id = some ⟨l.st, l.token⟩ ∧
      version = l.token + 1) := by
  obtain ⟨⟨hcreate, hnone⟩ | ⟨hcreate, st, hst⟩, -⟩ := Delivery.writes_ok hid h
  · exact .inl ⟨hcreate, hnone⟩
  · obtain ⟨inst, hinst, -, -, hsame⟩ := hl.stored hcreate
    rw [hst] at hinst
    cases hinst
    obtain ⟨hc, -⟩ | ⟨-, hv⟩ := Delivery.writes_version h
    · rw [hcreate] at hc
      cases hc
    · have hstate : st = l.st := hsame rfl
      rw [hstate] at hst
      exact .inr ⟨hcreate, hst, hv⟩

/-- A commit of a later state. -/
theorem Loop.Minds.writes {t : Trigger} {r : StepResult} {outcome : Option CallOutcome} (hl : l.Minds gen m id)
    (hid : r.state.instanceID = id) (hlater : l.st.Later (runIDs gen id) r.state)
    (h : Delivery.writes m l t r outcome = .ok (m', version)) : m.Grows gen m' := by
  obtain ⟨-, hput, -⟩ := Delivery.writes_ok hid h
  intro id' inst hinst
  by_cases hids : id' = id
  · subst hids
    obtain ⟨-, hnone⟩ | ⟨-, hst, hv⟩ := hl.found hid h
    · rw [hnone] at hinst
      cases hinst
    · rw [hst] at hinst
      cases hinst
      refine ⟨⟨r.state, version⟩, by rw [hput]; exact MemInstanceStore.put_same _ _ _, hlater, ?_, ?_⟩
      · change l.token ≤ version
        omega
      · intro he
        change l.token = version at he
        omega
  · refine ⟨inst, ?_, .refl _ _, le_rfl, fun _ => rfl⟩
    rw [hput, MemInstanceStore.put_other _ _ hids]
    exact hinst

/-- No link is lost, and none is marked. -/
structure MemInstanceStore.Links (m m' : MemInstanceStore) : Prop where
  kept : ∀ k ∈ m.callLinks.getD [], ∃ k' ∈ m'.callLinks.getD [], k'.link = k.link
  notified : ∀ k' ∈ m'.callLinks.getD [], k'.notified = true → ∃ k ∈ m.callLinks.getD [], k.link = k'.link ∧ k.notified = true

theorem MemInstanceStore.Links.refl (m : MemInstanceStore) : m.Links m :=
  ⟨fun k hk => ⟨k, hk, rfl⟩, fun k hk hn => ⟨k, hk, rfl, hn⟩⟩

/-- Links that are those of another store, perhaps changed otherwise. -/
theorem MemInstanceStore.Tracks.of_links (hm : m.Tracks gen) (hgrows : m.Grows gen m')
    (h : ∀ k' ∈ m'.callLinks.getD [], ∃ k ∈ m.callLinks.getD [], k.link = k'.link) : m'.Tracks gen where
  minted := by
    intro k' hk'
    obtain ⟨k, hk, he⟩ := h k' hk'
    exact he ▸ (hm.minted k hk).grows hgrows
  stored := by
    intro k' hk'
    obtain ⟨k, hk, he⟩ := h k' hk'
    exact he ▸ hgrows.has (fun _ hx => hx) (hm.stored k hk)
  distinct := by
    intro k hk k' hk' hsame
    obtain ⟨k0, hk0, he⟩ := h k hk
    obtain ⟨k0', hk0', he'⟩ := h k' hk'
    rw [← he, ← he'] at hsame ⊢
    exact hm.distinct k0 hk0 k0' hk0' hsame

/-- What a write does to the links. -/
theorem Loop.Minds.tracks {t : Trigger} {r : StepResult} {outcome : Option CallOutcome} (hl : l.Minds gen m id)
    (hid : r.state.instanceID = id) (hm : m.Tracks gen) (hgrows : m.Grows gen m')
    (h : Delivery.writes m l t r outcome = .ok (m', version)) : m'.Tracks gen ∧ m.Links m' := by
  have hlinks := Delivery.writes_links hid h
  have hsame : m'.callLinks = m.callLinks → m'.Tracks gen ∧ m.Links m' := by
    intro he
    refine ⟨hm.of_links hgrows (fun k hk => ⟨k, he ▸ hk, rfl⟩),
      ⟨fun k hk => ⟨k, he ▸ hk, rfl⟩, fun k hk hn => ⟨k, he ▸ hk, rfl, hn⟩⟩⟩
  cases hcalls : m.callLinks with
  | none =>
    refine hsame ?_
    rw [hlinks, hcalls]
    split <;> split <;> rfl
  | some links =>
    split at hlinks
    · rename_i hcreate
      split at hlinks
      · rename_i link hfirst
        obtain ⟨hchild, hmint⟩ := hl.links link hfirst
        obtain ⟨-, hput, -⟩ := Delivery.writes_ok hid h
        have hnone : m.instances id = none := by
          obtain ⟨-, hnone⟩ | ⟨hc, -⟩ := hl.found hid h
          · exact hnone
          · rw [hcreate] at hc
            cases hc
        -- the child is new, so its link replaces none
        have hother : ∀ k ∈ links, k.link.childInstanceID ≠ id := by
          intro k hk he
          obtain ⟨inst, hinst, -⟩ := hm.stored k (by rw [hcalls]; exact hk)
          rw [he, hnone] at hinst
          cases hinst
        have hall : m'.callLinks.getD [] = links ++ [{ link := link }] := by
          rw [hlinks, hcalls]
          change links.filter _ ++ _ = _
          rw [List.filter_eq_self.mpr]
          intro k hk
          rw [hchild]
          exact bne_iff_ne.mpr (hother k hk)
        have hcases : ∀ k ∈ m'.callLinks.getD [], k ∈ m.callLinks.getD [] ∨ k = { link := link } := by
          intro k hk
          rw [hall] at hk
          obtain hk | hk := List.mem_append.mp hk
          · rw [hcalls]
            exact .inl hk
          · exact .inr (List.mem_singleton.mp hk)
        refine ⟨⟨fun k hk => ?_, fun k hk => ?_, fun k hk k' hk' hsame => ?_⟩, ⟨fun k hk => ⟨k, ?_, rfl⟩, fun k hk hn => ?_⟩⟩
        · obtain hk | rfl := hcases k hk
          · exact (hm.minted k hk).grows hgrows
          · exact hmint.grows hgrows
        · obtain hk | rfl := hcases k hk
          · exact hgrows.has (fun _ hx => hx) (hm.stored k hk)
          · rw [hchild]
            exact ⟨_, by rw [hput]; exact MemInstanceStore.put_same _ _ _, trivial⟩
        · obtain hk | rfl := hcases k hk
          · obtain hk' | rfl := hcases k' hk'
            · exact hm.distinct k hk k' hk' hsame
            · rw [hcalls] at hk
              exact absurd (hsame.trans hchild) (hother k hk)
          · obtain hk' | rfl := hcases k' hk'
            · rw [hcalls] at hk'
              exact absurd (hsame.symm.trans hchild) (hother k' hk')
            · rfl
        · rw [hall]
          rw [hcalls] at hk
          exact List.mem_append_left _ hk
        · obtain hk | rfl := hcases k hk
          · exact ⟨k, hk, rfl, hn⟩
          · cases hn
      · exact hsame hlinks
    · split at hlinks
      · rename_i out
        have hall : m'.callLinks.getD [] = links.markTerminal id out := by rw [hlinks, hcalls]; rfl
        have hback : ∀ k' ∈ m'.callLinks.getD [], ∃ k ∈ m.callLinks.getD [], k.link = k'.link ∧ k.notified = k'.notified := by
          intro k' hk'
          rw [hall] at hk'
          obtain ⟨k, hk, rfl⟩ := List.mem_map.mp hk'
          refine ⟨k, by rw [hcalls]; exact hk, ?_⟩
          split
          · exact ⟨rfl, rfl⟩
          · exact ⟨rfl, rfl⟩
        refine ⟨hm.of_links hgrows (fun k' hk' => ?_), ⟨fun k hk => ?_, fun k' hk' hn => ?_⟩⟩
        · obtain ⟨k, hk, he, -⟩ := hback k' hk'
          exact ⟨k, hk, he⟩
        · rw [hcalls] at hk
          rw [hall]
          refine ⟨_, List.mem_map_of_mem hk, ?_⟩
          split
          · rfl
          · rfl
        · obtain ⟨k, hk, he, hsame⟩ := hback k' hk'
          exact ⟨k, hk, he, hsame.trans hn⟩
      · exact hsame hlinks

end Stores

/-! ## Calls -/

/-- The loop of a call that performs commands, and the commands. -/
def Stage.performing? : Stage → Option (Loop × List Command)
  | .perform l commands | .child l _ _ commands _ => some (l, commands)
  | _ => none

/-- The loop minds the store, and the children it is to start have minted commands. -/
structure Delivery.Minds (m : MemInstanceStore) (c : Delivery gen) : Prop where
  loop : ∀ l, c.stage.loop? = some l → l.Minds gen m c.instanceID
  commands : ∀ l commands, c.stage.performing? = some (l, commands) → l.create = false ∧
    ∀ cmd ∈ commands, ∀ cmdID, cmd.Starts cmdID → Minted (runIDs gen c.instanceID) .command l.st.cmdSeq cmdID

section Calls
variable {m m' : MemInstanceStore} {y z : System gen} {w : World} {c c' : Delivery gen} {child : Option (Delivery gen)}
  {e : DriverError} {i : Nat}

theorem Delivery.Minds.grows (hc : c.Minds m) (h : m.Grows gen m') : c.Minds m' :=
  ⟨fun l hl => (hc.loop l hl).grows h, hc.commands⟩

@[simp] theorem Delivery.returns_performing : (c.returns e).stage.performing? = none := by
  unfold Delivery.returns
  split
  · split <;> rfl
  · rfl

theorem Delivery.returns_minds : (c.returns e).Minds m where
  loop := by
    intro l hl
    rw [Delivery.returns_loop] at hl
    cases hl
  commands := by
    intro l commands hl
    rw [Delivery.returns_performing] at hl
    cases hl

theorem Delivery.resume_minds {l : Loop} {t : Option Trigger} (hl : l.Minds gen m c.instanceID)
    (hcreate : l.create = false) (hcommands : ∀ cmd ∈ commands, ∀ cmdID, cmd.Starts cmdID →
      Minted (runIDs gen c.instanceID) .command l.st.cmdSeq cmdID) : (c.resume l commands t).Minds m where
  loop := by
    intro l' hl'
    rw [Delivery.resume_stage] at hl'
    cases hl'
    rw [Delivery.resume_instanceID]
    exact hl.append t
  commands := by
    intro l' commands' hl'
    rw [Delivery.resume_stage] at hl'
    cases hl'
    rw [Delivery.resume_instanceID]
    exact ⟨hcreate, hcommands⟩

/-- The call goes on behind a command. -/
theorem Delivery.Minds.behind (hc : c.Minds m) {l : Loop} {cmd : Command}
    (hstage : c.stage = .perform l (cmd :: commands)) (hid : c'.instanceID = c.instanceID) (hloop : c'.stage.loop? = some l)
    (hperforms : c'.stage.performing? = some (l, commands)) : c'.Minds m := by
  obtain ⟨hcreate, hcommands⟩ := hc.commands l _ (by rw [hstage]; rfl)
  constructor
  · intro l' hl'
    rw [hloop] at hl'
    cases hl'
    rw [hid]
    exact hc.loop l (by rw [hstage]; rfl)
  · intro l' commands' hl'
    rw [hperforms] at hl'
    cases hl'
    rw [hid]
    exact ⟨hcreate, fun cmd' hmem => hcommands cmd' (List.mem_cons_of_mem _ hmem)⟩

/-- What holds in a system of calls that mind the store. -/
structure System.Minds (y : System gen) : Prop where
  sound : y.Sound
  stored : ∀ id inst, y.store.instances id = some inst → inst.state.Waits (runIDs gen id)
  calls : ∀ c ∈ y.calls, c.Minds y.store
  tracks : y.store.Tracks gen

/-- The loop of a call that steps a trigger. -/
theorem System.Minds.iterating (hy : y.Minds) (hc : c ∈ y.calls) {l : Loop} (hstage : c.stage = .iterate l) :
    l.Minds gen y.store c.instanceID ∧ Steps.Sound gen c.instanceID l.st := by
  have hloop : c.stage.loop? = some l := by rw [hstage]; rfl
  exact ⟨(hy.calls c hc).loop l hloop, hy.sound.held c hc l hloop⟩

/-- What a commit of a call does to the store. -/
theorem System.Minds.commit (hgen : ∀ g ∈ gen, g.ClearOfGateways) (hy : y.Minds) (hc : c ∈ y.calls) {l : Loop}
    (hstage : c.stage = .iterate l) {t : Trigger} {r : StepResult} {outcome : Option CallOutcome}
    (hprep : c.driver.prepare w.fuel c.definition l.st t = some (.ok (r, outcome)))
    (hwrite : Delivery.writes y.store l t r outcome = .ok (m, version)) :
    y.store.Grows gen m ∧ m.instances c.instanceID = some ⟨r.state, version⟩ ∧ r.state.Waits (runIDs gen c.instanceID) ∧
      (∀ id inst, m.instances id = some inst → inst.state.Waits (runIDs gen id)) ∧ (m.Tracks gen ∧ y.store.Links m) ∧
      ∀ cmd ∈ r.commands, ∀ cmdID, cmd.Starts cmdID → Minted (runIDs gen c.instanceID) .command r.state.cmdSeq cmdID := by
  obtain ⟨hl, hsound⟩ := hy.iterating hc hstage
  have hid := (prepare_sound hsound hprep).instanceID
  obtain ⟨hwaits, hlater, hstarts⟩ := prepare_later hgen hsound hl.waits hprep
  have hgrows := hl.writes hid hlater hwrite
  obtain ⟨-, hput, -⟩ := Delivery.writes_ok hid hwrite
  refine ⟨hgrows, by rw [hput]; exact MemInstanceStore.put_same _ _ _, hwaits, ?_,
    hl.tracks hid hy.tracks hgrows hwrite, hstarts⟩
  intro id' inst' hinst'
  rw [hput] at hinst'
  by_cases hids : id' = c.instanceID
  · subst hids
    rw [MemInstanceStore.put_same] at hinst'
    cases hinst'
    exact hwaits
  · rw [MemInstanceStore.put_other _ _ hids] at hinst'
    exact hy.stored id' inst' hinst'

/-- One transition of a call. -/
theorem Delivery.Does.minds (hgen : ∀ g ∈ gen, g.ClearOfGateways) (hy : y.Minds) (hc : c ∈ y.calls)
    (h : c.Does y w m c' child) :
    y.store.Grows gen m ∧ c'.Minds m ∧ (∀ id inst, m.instances id = some inst → inst.state.Waits (runIDs gen id)) ∧
      m.Tracks gen ∧ y.store.Links m := by
  have hminds := hy.calls c hc
  have hsame : ∀ {c'' : Delivery gen}, c''.Minds y.store → y.store.Grows gen y.store ∧ c''.Minds y.store ∧
      (∀ id inst, y.store.instances id = some inst → inst.state.Waits (runIDs gen id)) ∧
        y.store.Tracks gen ∧ y.store.Links y.store :=
    fun h => ⟨.of_eq rfl, h, hy.stored, hy.tracks, .refl _⟩
  have hperforms : ∀ {l commands}, c.stage = .perform l commands → l.Minds gen y.store c.instanceID ∧ l.create = false ∧
      ∀ cmd ∈ commands, ∀ cmdID, cmd.Starts cmdID → Minted (runIDs gen c.instanceID) .command l.st.cmdSeq cmdID := by
    intro l commands hstage
    obtain ⟨hcreate, hcommands⟩ := hminds.commands l commands (by rw [hstage]; rfl)
    exact ⟨hminds.loop l (by rw [hstage]; rfl), hcreate, hcommands⟩
  cases h with
  | notFound hstage e he => exact hsame Delivery.returns_minds
  | loads hstage st token hinst =>
    refine hsame ⟨fun l hl => ?_, fun _ _ hl => nomatch hl⟩
    cases hl
    exact ⟨hy.stored _ _ hinst, fun _ hlink => (nomatch hlink), fun _ => ⟨_, hinst, .refl _ _, le_rfl, fun _ => rfl⟩⟩
  | finishes l hstage hqueue => exact hsame ⟨fun _ hl => (nomatch hl), fun _ _ hl => nomatch hl⟩
  | refused l hstage t queue hqueue e hprep => exact hsame Delivery.returns_minds
  | loses l hstage t queue hqueue r outcome hprep e hwrite => exact hsame Delivery.returns_minds
  | timersFail l hstage t queue hqueue r outcome hprep m version hwrite e hfail =>
    obtain ⟨hgrows, -, -, hstored, hlinks, -⟩ := hy.commit hgen hc hstage hprep hwrite
    exact ⟨hgrows, Delivery.returns_minds, hstored, hlinks⟩
  | commits l hstage t queue hqueue r outcome hprep m version hwrite =>
    obtain ⟨hgrows, hinst, hwaits, hstored, hlinks, hstarts⟩ := hy.commit hgen hc hstage hprep hwrite
    refine ⟨hgrows, ⟨fun l' hl' => ?_, fun l' commands hl' => ?_⟩, hstored, hlinks⟩
    · cases hl'
      exact ⟨hwaits, fun _ hlink => (nomatch hlink), fun _ => ⟨_, hinst, .refl _ _, le_rfl, fun _ => rfl⟩⟩
    · cases hl'
      exact ⟨rfl, hstarts⟩
  | performed l hstage =>
    obtain ⟨hl, -, -⟩ := hperforms hstage
    refine hsame ⟨fun l' hl' => ?_, fun _ _ hl => nomatch hl⟩
    cases hl'
    exact hl
  | skips l cmd commands hstage htimer => exact hsame (hminds.behind hstage rfl rfl rfl)
  | performFails l cmd commands hstage e pre hfail => exact hsame Delivery.returns_minds
  | performs l cmd commands hstage t hanswers =>
    obtain ⟨hl, hcreate, hcommands⟩ := hperforms hstage
    exact hsame (Delivery.resume_minds (c := c.notesDispatch cmd) hl hcreate
      (fun cmd' hmem => hcommands cmd' (List.mem_cons_of_mem _ hmem)))
  | spawns l cmd commands hstage hanswers child hlink => exact hsame (hminds.behind hstage rfl rfl rfl)
  | resumes l commandID childID commands callee hstage t =>
    obtain ⟨hcreate, hcommands⟩ := hminds.commands l commands (by rw [hstage]; rfl)
    exact hsame (Delivery.resume_minds (hminds.loop l (by rw [hstage]; rfl)) hcreate hcommands)

/-- The link of a child names its parent and one of the parent's commands. -/
theorem Delivery.performs_link {callee : Nat} {l : Loop} {cmd : Command} {called : Delivery gen}
    (h : (c.performs w m callee l cmd commands).2 = some called) :
    ∃ a : Child, called = .create c.driver a.definition a.instanceID ⟨w.now, .startInstance a.input ""⟩ (c.depth + 1) a.link ∧
      ∀ link ∈ a.link, link.childInstanceID = a.instanceID ∧ link.parentInstanceID = l.st.instanceID ∧
        cmd.Starts link.parentCommandID := by
  unfold Delivery.performs at h
  split at h
  · cases h
  · dsimp only at h
    split at h
    · cases h
    · cases h
    · rename_i a hperf
      cases h
      refine ⟨a, rfl, fun link hlink => ?_⟩
      unfold ProcessDriver.perform at hperf
      split at hperf
      · cases hperf
      · cases cmd with
        | startSubInstance commandID defRef input =>
          have hstart := Except.ok.inj hperf
          unfold ProcessDriver.performStartSubInstance at hstart
          dsimp only at hstart
          split at hstart
          · split at hstart
            · cases hstart
            · cases hstart
              cases hlink
              exact ⟨rfl, rfl, defRef, input, rfl⟩
          · split at hstart
            · cases hstart
            · split at hstart
              · cases hstart
              · cases hstart
                cases hlink
        | _ => cases hperf

/-- A call that is begun while a command is performed. -/
theorem System.advance_spawns {l : Loop} {cmd : Command} {called : Delivery gen}
    (h : y.advance i w = some z) (hc : y.calls[i]? = some c) (hstage : c.stage = .perform l (cmd :: commands))
    (hz : z.calls = y.calls.set i c' ++ [called]) :
    (c.performs w y.store y.calls.length l cmd commands).2 = some called := by
  unfold System.advance at h
  rw [hc] at h
  dsimp only at h
  rw [hstage] at h
  have hcalls := congrArg System.calls (Option.some.inj h)
  rw [hz] at hcalls
  obtain ⟨-, hcalled⟩ := List.append_inj hcalls (by rw [List.length_set, List.length_set])
  cases hp : (c.performs w y.store y.calls.length l cmd commands).2 with
  | none =>
    rw [hp] at hcalled
    cases hcalled
  | some a =>
    rw [hp] at hcalled
    cases hcalled
    rfl

theorem Delivery.create_minds (driver : ProcessDriver gen) (d : ProcessDefinition) (instanceID : String) (trg : Trigger)
    (depth : Nat) {link : Option CallLink} (hlink : ∀ a ∈ link, a.childInstanceID = instanceID ∧ a.Minted gen m) :
    (Delivery.create driver d instanceID trg depth link).Minds m where
  loop := by
    intro l hl
    cases hl
    exact ⟨blank_waits _ _, hlink, fun h => nomatch h⟩
  commands := fun _ _ hl => nomatch hl

/-- A link after a mark: one from before, which is marked now or was, as its child's or not. -/
theorem MemCallLinks.mem_marked {links : Option MemCallLinks} {childID : String} {k : MemLink}
    (hk : k ∈ (links.map (fun links => links.markNotified childID)).getD []) :
    ∃ k0 ∈ links.getD [], k0.link = k.link ∧ (k.notified = true → k0.notified = true ∨ k.link.childInstanceID = childID) := by
  cases links with
  | none => cases hk
  | some links =>
    obtain ⟨k0, hk0, rfl⟩ := List.mem_map.mp hk
    refine ⟨k0, hk0, ?_⟩
    split
    · rename_i hchild
      exact ⟨rfl, fun _ => .inr (beq_iff_eq.mp hchild)⟩
    · exact ⟨rfl, fun hn => .inl hn⟩

/-- Every transition of the system keeps what holds in it, and its store grows. -/
theorem System.Minds.step (hgen : ∀ g ∈ gen, g.ClearOfGateways) (hy : y.Minds)
    (hstep : y.step choice = some z) : z.Minds ∧ y.store.Grows gen z.store ∧
      (choice.marks = false → y.store.Links z.store) := by
  have hsound := hy.sound.step hstep
  cases choice with
  | apply driver d instanceID trg retrying =>
    cases hstep
    refine ⟨⟨hsound, hy.stored, fun c hc => ?_, hy.tracks⟩, .of_eq rfl, fun _ => .refl _⟩
    obtain hc | hc := List.mem_append.mp hc
    · exact hy.calls c hc
    · rw [List.mem_singleton.mp hc]
      exact ⟨fun _ hl => (nomatch hl), fun _ _ hl => (nomatch hl)⟩
  | start driver d instanceID at_ vars startNodeID =>
    cases hstep
    refine ⟨⟨hsound, hy.stored, fun c hc => ?_, hy.tracks⟩, .of_eq rfl, fun _ => .refl _⟩
    obtain hc | hc := List.mem_append.mp hc
    · exact hy.calls c hc
    · rw [List.mem_singleton.mp hc]
      exact Delivery.create_minds driver d instanceID _ 0 (fun _ h => nomatch h)
  | markNotified childID =>
    cases hstep
    have hgrows : y.store.Grows gen
        { y.store with callLinks := y.store.callLinks.map (fun links => links.markNotified childID) } := .of_eq rfl
    refine ⟨⟨hsound, hy.stored, fun c hc => (hy.calls c hc).grows hgrows, hy.tracks.of_links hgrows (fun k hk => ?_)⟩, hgrows,
      fun h => nomatch h⟩
    obtain ⟨k0, hk0, hsame⟩ := MemCallLinks.mem_marked hk
    exact ⟨k0, hk0, hsame.1⟩
  | advance i w =>
    obtain ⟨c, m, c', child, hc, hdoes, rfl⟩ := System.advance_does hstep
    have hmem := List.mem_of_getElem? hc
    obtain ⟨hgrows, hminds, hstored, htracks, hlinks⟩ := hdoes.minds hgen hy hmem
    refine ⟨⟨hsound, hstored, fun c'' hc'' => ?_, htracks⟩, hgrows, fun _ => hlinks⟩
    obtain rfl | ⟨j, -, hj⟩ | hchild := mem_calls_after hc''
    · exact hminds
    · exact (hy.calls c'' (List.mem_of_getElem? hj)).grows hgrows
    · cases hdoes with
      | spawns l cmd commands hstage hanswers child hlink =>
        obtain ⟨hcreate, hcommands⟩ := (hy.calls c hmem).commands l _ (by rw [hstage]; rfl)
        cases hchild
        obtain ⟨a, ha, hparent⟩ := Delivery.performs_link (System.advance_spawns hstep hc hstage rfl)
        rw [ha]
        refine Delivery.create_minds _ _ _ _ _ (fun link hlink => ?_)
        obtain ⟨hchild, hid, hstarts⟩ := hparent link hlink
        refine ⟨hchild, CallLink.Minted.grows ?_ hgrows⟩
        obtain ⟨inst, hinst, hlater, -⟩ := ((hy.calls c hmem).loop l (by rw [hstage]; rfl)).stored hcreate
        have hst := (hy.sound.held c hmem l (by rw [hstage]; rfl)).instanceID
        unfold CallLink.Minted
        rw [hid, hst]
        exact ⟨inst, hinst, (hcommands cmd List.mem_cons_self _ hstarts).mono hlater.seq⟩
      | _ => cases hchild

/-! ## Telling a parent -/

/-- How far a call has come that tells the parent of a link of its child's end: it found the command settled or left it so,
it has not begun, or it has come to another failure than for want of a token. -/
structure Delivery.Tells (m : MemInstanceStore) (link : CallLink) (c : Delivery gen) : Prop where
  instanceID : c.instanceID = link.parentInstanceID
  trigger : c.trigger.body.childCommand = some link.parentCommandID
  course : link.Settled gen m ∨ c.stage = .load ∨ (∃ l, c.stage = .iterate l ∧ l.create = false ∧ l.queue = [c.trigger] ∧
      Minted (runIDs gen link.parentInstanceID) .command l.st.cmdSeq link.parentCommandID) ∨
    ∃ e, c.stage = .done (.error e) ∧ e.kind ≠ some .tokenNotFound

theorem Delivery.Tells.grows {link : CallLink} (hc : c.Tells m link) (h : m.Grows gen m') : c.Tells m' link :=
  ⟨hc.instanceID, hc.trigger, hc.course.imp_left (·.grows h)⟩

@[simp] theorem Delivery.returns_trigger : (c.returns e).trigger = c.trigger := by
  unfold Delivery.returns
  split
  · split <;> rfl
  · rfl

theorem Delivery.Does.trigger (h : c.Does y w m c' child) : c'.trigger = c.trigger := by
  cases h with
  | notFound hstage e he => exact Delivery.returns_trigger
  | refused l hstage t queue hqueue e hprep => exact Delivery.returns_trigger
  | loses l hstage t queue hqueue r outcome hprep e hwrite => exact Delivery.returns_trigger
  | timersFail l hstage t queue hqueue r outcome hprep m version hwrite e hfail => exact Delivery.returns_trigger
  | performFails l cmd commands hstage e pre hfail => exact Delivery.returns_trigger
  | performs l cmd commands hstage t hanswers => cases t <;> rfl
  | resumes l commandID childID commands callee hstage t => cases t <;> rfl
  | _ => rfl

/-- An attempt that ends for another reason than for want of a token. -/
theorem Delivery.returns_course (hkind : e.kind ≠ some .tokenNotFound) :
    (c.returns e).stage = .load ∨ ∃ e', (c.returns e).stage = .done (.error e') ∧ e'.kind ≠ some .tokenNotFound := by
  unfold Delivery.returns
  split
  · split
    · exact .inr ⟨e, rfl, hkind⟩
    · exact .inl rfl
  · exact .inr ⟨e, rfl, hkind⟩

/-- A commit that tells a parent leaves the command settled. -/
theorem System.Minds.tells (hgen : ∀ g ∈ gen, g.ClearOfGateways) (hy : y.Minds) (hc : c ∈ y.calls) {l : Loop}
    (hstage : c.stage = .iterate l) {t : Trigger} {r : StepResult} {outcome : Option CallOutcome}
    (hprep : c.driver.prepare w.fuel c.definition l.st t = some (.ok (r, outcome))) {n : Nat}
    (htrg : t.body.childCommand = some ((runIDs gen c.instanceID).newID .command n))
    (hmint : l.st.status.isTerminal = true →
      Minted (runIDs gen c.instanceID) .command l.st.cmdSeq ((runIDs gen c.instanceID).newID .command n)) :
    r.state.Settled (runIDs gen c.instanceID) ((runIDs gen c.instanceID).newID .command n) := by
  obtain ⟨hl, hsound⟩ := hy.iterating hc hstage
  cases hend : l.st.status.isTerminal with
  | false => exact (prepare_settles hgen hsound hl.waits hend htrg hprep).2
  | true =>
    obtain ⟨-, hlater, -⟩ := prepare_later hgen hsound hl.waits hprep
    exact hlater.settled _ ⟨hmint hend, .inl hend⟩

/-- The call of a link goes on. -/
theorem Delivery.Tells.advance (hgen : ∀ g ∈ gen, g.ClearOfGateways) (hy : y.Minds) {link : CallLink}
    (hlink : link.Minted gen y.store) (hc : y.calls[i]? = some c) (htells : c.Tells y.store link)
    (hstep : y.advance i w = some z) : ∃ c', z.calls[i]? = some c' ∧ c'.Tells z.store link := by
  have hmem := List.mem_of_getElem? hc
  have hlen : i < y.calls.length := (List.getElem?_eq_some_iff.mp hc).1
  have hnext : y.step (.advance i w) = some z := hstep
  obtain ⟨-, hgrows, -⟩ := hy.step hgen hnext
  obtain ⟨c0, m, c', child, hc0, hdoes, hz'⟩ := System.advance_does hstep
  rw [hc] at hc0
  cases hc0
  have hget : z.calls[i]? = some c' := by
    rw [hz', List.getElem?_append_left (by rw [List.length_set]; exact hlen), List.getElem?_set_self hlen]
  refine ⟨c', hget, hdoes.instanceID.trans htells.instanceID, by rw [hdoes.trigger]; exact htells.trigger, ?_⟩
  have hstore : z.store = m := by rw [hz']
  obtain hset | hload | ⟨l, hstage, hcreate, hqueue, hmint⟩ | ⟨e, hdone, -⟩ := htells.course
  · exact .inl (hset.grows hgrows)
  · -- the parent is stored, so it is found
    obtain ⟨inst, hinst, hmint⟩ := hlink
    unfold System.advance at hstep
    rw [hc] at hstep
    dsimp only at hstep
    rw [hload] at hstep
    unfold MemInstanceStore.load at hstep
    rw [htells.instanceID, hinst] at hstep
    rw [← Option.some.inj hstep, List.getElem?_set_self hlen] at hget
    rw [← Option.some.inj hget]
    exact .inr (.inr (.inl ⟨_, rfl, rfl, rfl, hmint⟩))
  · obtain ⟨hl, -⟩ := hy.iterating hmem hstage
    have hhead : ∀ {l' t queue}, c.stage = .iterate l' → l'.queue = t :: queue → l = l' ∧ c.trigger = t := by
      intro l' t queue hstage' hqueue'
      rw [hstage] at hstage'
      cases hstage'
      rw [hqueue] at hqueue'
      cases hqueue'
      exact ⟨rfl, rfl⟩
    have hsettled : ∀ {r outcome version}, c.driver.prepare w.fuel c.definition l.st c.trigger = some (.ok (r, outcome)) →
        Delivery.writes y.store l c.trigger r outcome = .ok (m, version) → link.Settled gen z.store := by
      intro r outcome version hprep hwrite
      obtain ⟨-, hinst, -⟩ := hy.commit hgen hmem hstage hprep hwrite
      obtain ⟨n, hn, hcmd⟩ := hmint
      have hset := hy.tells hgen hmem hstage hprep (n := n) (by rw [htells.trigger, hcmd, htells.instanceID])
        (fun _ => by rw [htells.instanceID]; exact ⟨n, hn, rfl⟩)
      rw [hstore]
      rw [htells.instanceID] at hinst hset
      exact ⟨_, hinst, hcmd ▸ hset⟩
    cases hdoes with
    | refused l' hstage' t queue hqueue' e hprep =>
      obtain ⟨rfl, rfl⟩ := hhead hstage' hqueue'
      by_cases hkind : e.kind = some .tokenNotFound
      · -- no token waits for the command in the state that was loaded, so none does in the stored one
        have hnone := prepare_lacks htells.trigger hprep hkind
        obtain ⟨inst, hinst, hlater, -⟩ := hl.stored hcreate
        rw [htells.instanceID] at hinst hlater
        rw [hstore]
        exact .inl ⟨inst, hinst, hlater.settled _ ⟨hmint, .inr hnone⟩⟩
      · obtain h | h := Delivery.returns_course (c := c) hkind
        · exact .inr (.inl h)
        · exact .inr (.inr (.inr h))
    | loses l' hstage' t queue hqueue' r outcome hprep e hwrite =>
      obtain h | h := Delivery.returns_course (c := c) (e := (DriverError.ofStore e).wrap "workflow-runtime: commit: ")
        (fun h => nomatch h)
      · exact .inr (.inl h)
      · exact .inr (.inr (.inr h))
    | timersFail l' hstage' t queue hqueue' r outcome hprep m version hwrite e hfail =>
      obtain ⟨rfl, rfl⟩ := hhead hstage' hqueue'
      exact .inl (hsettled hprep hwrite)
    | commits l' hstage' t queue hqueue' r outcome hprep m version hwrite =>
      obtain ⟨rfl, rfl⟩ := hhead hstage' hqueue'
      exact .inl (hsettled hprep hwrite)
    | finishes l' hstage' hqueue' =>
      rw [hstage] at hstage'
      cases hstage'
      rw [hqueue] at hqueue'
      cases hqueue'
    | notFound hstage' | loads hstage' | performed _ hstage' | skips _ _ _ hstage' | performFails _ _ _ hstage'
    | performs _ _ _ hstage' | spawns _ _ _ hstage' | resumes _ _ _ _ _ hstage' =>
      rw [hstage] at hstage'
      cases hstage'
  · exact (hdoes.not_done hdone).elim

end Calls

/-! ## Drains -/

/-- There is a link, whatever is known of it by now. -/
def MemInstanceStore.Knows (m : MemInstanceStore) (link : CallLink) : Prop := ∃ k ∈ m.callLinks.getD [], k.link = link

/-- What holds in every run of the notifiers. -/
structure Notifiers.Minds (x : Notifiers gen) : Prop where
  system : x.system.Minds
  notified : ∀ k ∈ x.system.store.callLinks.getD [], k.notified = true → k.link.Settled gen x.system.store
  settled : ∀ id n, (id, (runIDs gen id).newID .command n) ∈ x.told →
    x.system.store.Has id (·.Settled (runIDs gen id) ((runIDs gen id).newID .command n))
  once : ∀ id n, x.told.count (id, (runIDs gen id).newID .command n) ≤ 1
  pending : ∀ drain ∈ x.drains, ∀ p ∈ drain.pending, x.system.store.Knows p.link
  current : ∀ drain ∈ x.drains, ∀ p i, drain.current = some (p, i) → x.system.store.Knows p.link ∧
    ∃ c, x.system.calls[i]? = some c ∧ c.Tells x.system.store p.link

section Drains
variable {x x' : Notifiers gen} {y z : System gen} {i : Nat} {w : World} {c : Delivery gen} {id : String}
  {m m' : MemInstanceStore} {link : CallLink}

theorem MemInstanceStore.Knows.minted (h : m.Knows link) (hm : m.Tracks gen) : link.Minted gen m := by
  obtain ⟨k, hk, rfl⟩ := h
  exact hm.minted k hk

theorem MemInstanceStore.Knows.kept (h : m.Knows link) (hlinks : m.Links m') : m'.Knows link := by
  obtain ⟨k, hk, rfl⟩ := h
  exact hlinks.kept k hk

theorem Notifiers.blank_minds (leaseTTL : Duration) : (Notifiers.blank leaseTTL : Notifiers gen).Minds where
  system := ⟨System.blank_sound _, fun _ _ h => (nomatch h), fun _ h => (nomatch h),
    ⟨fun _ h => (nomatch h), fun _ h => (nomatch h), fun _ h => (nomatch h)⟩⟩
  notified := fun _ h => nomatch h
  settled := fun _ _ h => nomatch h
  once := fun _ _ => Nat.zero_le 1
  pending := fun _ h => nomatch h
  current := fun _ h => nomatch h

/-- What a transition of a call stored: nothing, or the step of the trigger at the head of its queue. -/
theorem System.advance_commits (h : y.advance i w = some z) (hc : y.calls[i]? = some c) :
    z.store = y.store ∨ ∃ l t r outcome version, c.stage = .iterate l ∧
      c.driver.prepare w.fuel c.definition l.st t = some (.ok (r, outcome)) ∧
        Delivery.writes y.store l t r outcome = .ok (z.store, version) := by
  obtain ⟨c0, m, c', child, hc0, hdoes, rfl⟩ := System.advance_does h
  rw [hc] at hc0
  cases hc0
  cases hdoes with
  | timersFail l hstage t queue hqueue r outcome hprep m version hwrite e hfail =>
    exact .inr ⟨l, t, r, outcome, version, hstage, hprep, hwrite⟩
  | commits l hstage t queue hqueue r outcome hprep m version hwrite =>
    exact .inr ⟨l, t, r, outcome, version, hstage, hprep, hwrite⟩
  | _ => exact .inl rfl

/-- What is told is told to a live instance, a token of which waits for it, and settles it. -/
theorem System.Minds.toldTo (hgen : ∀ g ∈ gen, g.ClearOfGateways) (hy : y.Minds) (h : y.advance i w = some z) :
    y.toldTo z i = [] ∨ ∃ id cmdID, y.toldTo z i = [(id, cmdID)] ∧ ∀ n, cmdID = (runIDs gen id).newID .command n →
      ¬ y.store.Has id (·.Settled (runIDs gen id) cmdID) ∧ z.store.Has id (·.Settled (runIDs gen id) cmdID) := by
  obtain ⟨c, -, -, -, hc, -, -⟩ := System.advance_does h
  have hmem := List.mem_of_getElem? hc
  unfold System.toldTo
  rw [hc]
  dsimp only
  split
  · exact .inl rfl
  · rename_i inst hinst
    split
    · exact .inl rfl
    · rename_i hlive
      rw [Bool.not_eq_true] at hlive
      obtain hsame | ⟨l, t, r, outcome, version, hstage, hprep, hwrite⟩ := System.advance_commits h hc
      · rw [hsame, List.drop_length]
        exact .inl rfl
      · obtain ⟨hl, hsound⟩ := hy.iterating hmem hstage
        have hid := (prepare_sound hsound hprep).instanceID
        obtain ⟨-, -, hjournal⟩ := Delivery.writes_ok hid hwrite
        rw [hjournal, MemInstanceStore.put_same, List.drop_left]
        cases htrg : t.body.childCommand with
        | none =>
          left
          simp [htrg]
        | some cmdID =>
          refine .inr ⟨c.instanceID, cmdID, by simp [htrg], fun n hn => ?_⟩
          subst hn
          obtain ⟨-, hnone⟩ | ⟨-, hst, -⟩ := hl.found hid hwrite
          · rw [hinst] at hnone
            cases hnone
          · rw [hinst] at hst
            cases hst
            obtain ⟨⟨tok, htok, hawait⟩, hset⟩ := prepare_settles hgen hsound hl.waits hlive htrg hprep
            obtain ⟨-, hnew, -⟩ := hy.commit hgen hmem hstage hprep hwrite
            refine ⟨fun ⟨inst', hinst', hset'⟩ => ?_, ⟨_, hnew, hset⟩⟩
            rw [hinst] at hinst'
            cases hinst'
            obtain hend | hno := hset'.closed
            · rw [hlive] at hend
              cases hend
            · exact hno tok htok hawait

/-- The call of a link, whatever the system does. -/
theorem Delivery.Tells.step (hgen : ∀ g ∈ gen, g.ClearOfGateways) (hy : y.Minds) (hlink : y.store.Knows link)
    (hc : y.calls[i]? = some c) (htells : c.Tells y.store link) (hstep : y.step choice = some z) :
    ∃ c', z.calls[i]? = some c' ∧ c'.Tells z.store link := by
  have hlen : i < y.calls.length := (List.getElem?_eq_some_iff.mp hc).1
  obtain ⟨-, hgrows, -⟩ := hy.step hgen hstep
  cases choice with
  | apply driver d instanceID trg retrying =>
    cases hstep
    exact ⟨c, by rw [List.getElem?_append_left hlen]; exact hc, htells.grows hgrows⟩
  | start driver d instanceID at_ vars startNodeID =>
    cases hstep
    exact ⟨c, by rw [List.getElem?_append_left hlen]; exact hc, htells.grows hgrows⟩
  | markNotified childID =>
    cases hstep
    exact ⟨c, hc, htells.grows hgrows⟩
  | advance j w =>
    by_cases hij : i = j
    · subst hij
      exact htells.advance hgen hy (hlink.minted hy.tracks) hc hstep
    · obtain ⟨c0, m, c', child, -, -, rfl⟩ := System.advance_does hstep
      refine ⟨c, ?_, htells.grows hgrows⟩
      rw [List.getElem?_append_left (by rw [List.length_set]; exact hlen), List.getElem?_set_ne (Ne.symm hij)]
      exact hc

/-- The calls begin, go on and return. -/
theorem Notifiers.Minds.ofSystem (hgen : ∀ g ∈ gen, g.ClearOfGateways) (hx : x.Minds)
    (hmarks : choice.marks = false) (hstep : x.system.step choice = some z) :
    ({ x with system := z, told := x.told ++ x.system.newTold z choice } : Notifiers gen).Minds := by
  obtain ⟨hz, hgrows, hlinks⟩ := hx.system.step hgen hstep
  have hlinks := hlinks hmarks
  have htold : x.system.newTold z choice = [] ∨ ∃ id cmdID, x.system.newTold z choice = [(id, cmdID)] ∧
      ∀ n, cmdID = (runIDs gen id).newID .command n →
        ¬ x.system.store.Has id (·.Settled (runIDs gen id) cmdID) ∧ z.store.Has id (·.Settled (runIDs gen id) cmdID) := by
    cases choice with
    | advance i w => exact hx.system.toldTo hgen hstep
    | _ => exact .inl rfl
  refine ⟨hz, ?_, ?_, ?_, ?_, ?_⟩
  · intro k hk hn
    obtain ⟨k0, hk0, he, hn0⟩ := hlinks.notified k hk hn
    exact he ▸ (hx.notified k0 hk0 hn0).grows hgrows
  · intro id n hmem
    obtain hmem | hmem := List.mem_append.mp hmem
    · exact hgrows.has (fun hlater h => hlater.settled _ h) (hx.settled id n hmem)
    · obtain hnone | ⟨id', cmdID, hone, hsettles⟩ := htold
      · rw [hnone] at hmem
        cases hmem
      · rw [hone] at hmem
        cases List.mem_singleton.mp hmem
        exact (hsettles n rfl).2
  · intro id n
    change (x.told ++ x.system.newTold z choice).count _ ≤ 1
    rw [List.count_append]
    obtain hnone | ⟨id', cmdID, hone, hsettles⟩ := htold
    · rw [hnone]
      exact hx.once id n
    · rw [hone]
      by_cases hsame : (id', cmdID) = (id, (runIDs gen id).newID .command n)
      · -- what is told now was not told before: it was not settled
        cases hsame
        have hzero : x.told.count (id, (runIDs gen id).newID .command n) = 0 :=
          List.count_eq_zero.mpr (fun hmem => (hsettles n rfl).1 (hx.settled id n hmem))
        rw [hzero, List.count_singleton_self]
      · rw [List.count_singleton, if_neg (by simpa using hsame)]
        exact hx.once id n
  · intro drain hdrain p hp
    exact (hx.pending drain hdrain p hp).kept hlinks
  · intro drain hdrain p i hcurrent
    obtain ⟨hknows, c, hc, htells⟩ := hx.current drain hdrain p i hcurrent
    exact ⟨hknows.kept hlinks, htells.step hgen hx.system hknows hc hstep⟩

theorem PendingNotify.trigger_childCommand (p : PendingNotify) (now : Time) :
    (p.trigger now).body.childCommand = some p.link.parentCommandID := by
  unfold PendingNotify.trigger
  split <;> rfl

/-- A drain at a place goes on to its next link, or to none. -/
theorem Notifiers.Minds.setDrain (hx : x.Minds) {k : Nat} {drain : Drain}
    (hpending : ∀ p ∈ drain.pending, x.system.store.Knows p.link)
    (hcurrent : ∀ p i, drain.current = some (p, i) → x.system.store.Knows p.link ∧
      ∃ c, x.system.calls[i]? = some c ∧ c.Tells x.system.store p.link) : (x.setDrain k drain).Minds := by
  refine ⟨hx.system, hx.notified, hx.settled, hx.once, fun drain' hdrain' => ?_, fun drain' hdrain' => ?_⟩
  · obtain hold | rfl := List.mem_or_eq_of_mem_set hdrain'
    · exact hx.pending drain' hold
    · exact hpending
  · obtain hold | rfl := List.mem_or_eq_of_mem_set hdrain'
    · exact hx.current drain' hold
    · exact hcurrent

/-- A drain marks a link whose command is settled. -/
theorem Notifiers.Minds.mark (hgen : ∀ g ∈ gen, g.ClearOfGateways) (hx : x.Minds) {p : PendingNotify}
    (hknows : x.system.store.Knows p.link) (hsettled : p.link.Settled gen x.system.store)
    (hstep : x.system.step (.markNotified p.link.childInstanceID) = some z) :
    ({ x with system := z } : Notifiers gen).Minds := by
  obtain ⟨hz, hgrows, -⟩ := hx.system.step hgen hstep
  cases hstep
  have hkept : ∀ {link : CallLink}, x.system.store.Knows link → MemInstanceStore.Knows
      { x.system.store with
        callLinks := x.system.store.callLinks.map (fun links => links.markNotified p.link.childInstanceID) }
      link := by
    rintro link ⟨k, hk, rfl⟩
    cases hlinks : x.system.store.callLinks with
    | none =>
      rw [hlinks] at hk
      cases hk
    | some links =>
      rw [hlinks] at hk
      refine ⟨_, List.mem_map_of_mem hk, ?_⟩
      split
      · rfl
      · rfl
  refine ⟨hz, fun k hk hn => ?_, fun id n hmem => ?_, hx.once, fun drain hdrain q hq => ?_,
    fun drain hdrain q i hcurrent => ?_⟩
  · obtain ⟨k0, hk0, he, hcase⟩ := MemCallLinks.mem_marked hk
    obtain hn0 | hchild := hcase hn
    · exact he ▸ (hx.notified k0 hk0 hn0).grows hgrows
    · -- the child has one link, the one the drain was given
      obtain ⟨k1, hk1, he1⟩ := hknows
      have hsame : k.link = p.link := by
        rw [← he, ← he1]
        refine hx.system.tracks.distinct k0 hk0 k1 hk1 ?_
        rw [he, he1]
        exact hchild
      rw [hsame]
      exact hsettled.grows hgrows
  · exact hgrows.has (fun hlater h => hlater.settled _ h) (hx.settled id n hmem)
  · exact hkept (hx.pending drain hdrain q hq)
  · obtain ⟨hq, c, hc, htells⟩ := hx.current drain hdrain q i hcurrent
    exact ⟨hkept hq, c, hc, htells.grows hgrows⟩

/-- A drain that is done with a link goes on. -/
theorem Notifiers.Minds.goesOn (hx : x.Minds) {k : Nat} {drain : Drain} (hdrain : x.drains[k]? = some drain)
    {rest : List PendingNotify} (hrest : rest ⊆ drain.pending) : (x.setDrain k ⟨rest, none⟩).Minds :=
  hx.setDrain (fun p hp => hx.pending drain (List.mem_of_getElem? hdrain) p (hrest hp)) (fun _ _ h => nomatch h)

theorem Notifiers.Minds.step (hgen : ∀ g ∈ gen, g.ClearOfGateways) (hx : x.Minds) {next : NotifierStep gen}
    (hstep : x.step next = some x') : x'.Minds := by
  cases next with
  | system choice =>
    dsimp only [Notifiers.step] at hstep
    split at hstep
    · cases hstep
    · rename_i hmarks
      obtain ⟨z, hz, rfl⟩ := Option.map_eq_some_iff.mp hstep
      exact hx.ofSystem hgen (Bool.not_eq_true _ ▸ hmarks) hz
  | claim order limit now =>
    dsimp only [Notifiers.step] at hstep
    split at hstep
    · rename_i hperm
      rw [← Option.some.inj hstep]
      refine ⟨hx.system, hx.notified, hx.settled, hx.once, fun drain hdrain p hp => ?_, fun drain hdrain => ?_⟩
      · obtain hold | hnew := List.mem_append.mp hdrain
        · exact hx.pending drain hold p hp
        · rw [List.mem_singleton.mp hnew] at hp
          obtain ⟨k, hk, rfl⟩ := List.mem_map.mp hp
          have horder : k ∈ order := by
            unfold claimFrom at hk
            dsimp only at hk
            split at hk
            · exact (List.mem_filter.mp (List.mem_of_mem_take hk)).1
            · exact (List.mem_filter.mp hk).1
          exact ⟨k, (List.isPerm_iff.mp hperm).mem_iff.mp horder, rfl⟩
      · obtain hold | hnew := List.mem_append.mp hdrain
        · exact hx.current drain hold
        · rw [List.mem_singleton.mp hnew]
          exact fun _ _ h => nomatch h
    · cases hstep
  | skip k =>
    dsimp only [Notifiers.step] at hstep
    split at hstep
    · rename_i p rest hdrain
      rw [← Option.some.inj hstep]
      exact hx.goesOn hdrain (List.subset_cons_self p rest)
    · cases hstep
  | deliver k driver d now =>
    dsimp only [Notifiers.step] at hstep
    split at hstep
    · rename_i p rest hdrain
      obtain ⟨z, hz, rfl⟩ := Option.map_eq_some_iff.mp hstep
      have hmem := List.mem_of_getElem? hdrain
      have hafter := hx.ofSystem hgen rfl hz
      have hknows := hafter.pending _ hmem p List.mem_cons_self
      have htold : x.told ++ x.system.newTold z (.apply driver d p.link.parentInstanceID (p.trigger now) false) = x.told :=
        List.append_nil x.told
      rw [htold] at hafter
      refine Notifiers.Minds.setDrain hafter (fun q hq => hafter.pending _ hmem q (List.mem_cons_of_mem _ hq)) ?_
      rintro q i ⟨⟩
      refine ⟨hknows, Delivery.apply driver d p.link.parentInstanceID (p.trigger now) false, ?_, ?_⟩
      · cases hz
        exact List.getElem?_concat_length
      · exact ⟨rfl, p.trigger_childCommand now, .inr (.inl rfl)⟩
    · cases hstep
  | settle k =>
    dsimp only [Notifiers.step] at hstep
    split at hstep
    · rename_i rest p i hdrain
      split at hstep
      · rename_i result hdone
        obtain ⟨hknows, c, hc, htells⟩ := hx.current _ (List.mem_of_getElem? hdrain) p i rfl
        have hstage : c.stage = .done result := by
          rw [hc] at hdone
          exact Option.some.inj hdone
        split at hstep
        · rename_i hnotifies
          obtain ⟨z, hz, rfl⟩ := Option.map_eq_some_iff.mp hstep
          -- the call returned, so it found the command settled or left it so
          have hsettled : p.link.Settled gen x.system.store := by
            obtain h | h | ⟨l, h, -⟩ | ⟨e, h, hkind⟩ := htells.course
            · exact h
            · rw [hstage] at h
              cases h
            · rw [hstage] at h
              cases h
            · rw [hstage] at h
              cases h
              exact absurd (beq_iff_eq.mp hnotifies) hkind
          exact (hx.mark hgen hknows hsettled hz).goesOn hdrain (List.Subset.refl rest)
        · rw [← Option.some.inj hstep]
          exact hx.goesOn hdrain (List.Subset.refl rest)
      · cases hstep
    · cases hstep
  | crash k =>
    dsimp only [Notifiers.step] at hstep
    rw [← Option.some.inj hstep]
    exact hx.setDrain (fun _ h => nomatch h) (fun _ _ h => nomatch h)

/-- The child's end of an ended parent changes nothing. -/
theorem System.Minds.ended_told (hy : y.Minds) (hstep : y.step choice = some z) {t : Trigger}
    (htrg : t.body.childCommand ≠ none) (hjournal : z.store.journal id = y.store.journal id ++ [t]) {inst : MemInstance}
    (hinst : y.store.instances id = some inst) (hend : inst.state.status.isTerminal = true) :
    ∃ v, z.store.instances id = some ⟨inst.state, v⟩ := by
  have hsilent : z.store.journal ≠ y.store.journal := by
    intro he
    rw [he] at hjournal
    exact absurd (List.self_eq_append_right.mp hjournal) (List.cons_ne_nil t [])
  cases choice with
  | advance i w =>
    obtain ⟨c, -, -, -, hc, -, -⟩ := System.advance_does hstep
    have hmem := List.mem_of_getElem? hc
    obtain hsame | ⟨l, t', r, outcome, version, hstage, hprep, hwrite⟩ := System.advance_commits hstep hc
    · rw [hsame] at hsilent
      exact absurd rfl hsilent
    · obtain ⟨hl, hsound⟩ := hy.iterating hmem hstage
      have hid := (prepare_sound hsound hprep).instanceID
      obtain ⟨-, hput, hput'⟩ := Delivery.writes_ok hid hwrite
      have hids : id = c.instanceID := by
        by_contra hne
        rw [hput', MemInstanceStore.put_other _ _ hne] at hjournal
        exact absurd (List.self_eq_append_right.mp hjournal) (List.cons_ne_nil t [])
      subst hids
      rw [hput', MemInstanceStore.put_same] at hjournal
      obtain rfl : t' = t := by simpa using hjournal
      obtain ⟨-, hnone⟩ | ⟨-, hst, -⟩ := hl.found hid hwrite
      · rw [hinst] at hnone
        cases hnone
      · rw [hinst] at hst
        cases hst
        obtain ⟨r0, hr0, -, -, hsame, -⟩ := prepare_ok hprep
        obtain ⟨cmdID, hcmd⟩ := Option.ne_none_iff_exists'.mp htrg
        obtain ⟨hstate, hcmds⟩ := ended_step hend (by rw [(childCommand_spec hcmd).1]; decide) hr0
        refine ⟨version, ?_⟩
        rw [hput, MemInstanceStore.put_same, hsame hcmds, hstate]
  | _ =>
    cases hstep
    exact absurd rfl hsilent

/-- In every run of any number of drains beside any calls, a live parent is told at most once of the end of a child; what
comes later changes nothing; and a link is marked only when its parent has ended or awaits its command no longer. -/
theorem child_end_told_once (hgen : ∀ g ∈ gen, g.ClearOfGateways) {leaseTTL : Duration} {steps : List (NotifierStep gen)}
    (hrun : (Notifiers.blank leaseTTL).Runs steps x) :
    (∀ k ∈ x.system.store.callLinks.getD [], x.told.count (k.link.parentInstanceID, k.link.parentCommandID) ≤ 1) ∧
    (∀ choice z t id inst, x.system.step choice = some z → t.body.childCommand ≠ none →
      z.store.journal id = x.system.store.journal id ++ [t] → x.system.store.instances id = some inst →
        inst.state.status.isTerminal = true → ∃ v, z.store.instances id = some ⟨inst.state, v⟩) ∧
    ∀ k ∈ x.system.store.callLinks.getD [], k.notified = true →
      ∃ inst, x.system.store.instances k.link.parentInstanceID = some inst ∧
        (inst.state.status.isTerminal = true ∨ ∀ t ∈ inst.state.tokens, t.awaitCommand ≠ k.link.parentCommandID) := by
  have hx : x.Minds := hrun.invariant (Notifiers.blank_minds leaseTTL) (fun h _ hnext => h.step hgen hnext)
  refine ⟨fun k hk => ?_, fun choice z t id inst hstep htrg hjournal hinst hend => ?_, fun k hk hn => ?_⟩
  · obtain ⟨inst, -, n, -, hcmd⟩ := hx.system.tracks.minted k hk
    rw [hcmd]
    exact hx.once k.link.parentInstanceID n
  · exact hx.system.ended_told hstep htrg hjournal hinst hend
  · obtain ⟨inst, hinst, hset⟩ := hx.notified k hk hn
    exact ⟨inst, hinst, hset.closed⟩

end Drains

/-- The link of the child of `callsOther`, which has completed. -/
def completedLink : MemLink where
  link := ⟨"i-sub-c1", "i", "i-c1", "parent", 1, 1⟩
  terminal := true
  outcome := { completed := true }

/-- Two drains claim the link of an ended child and both tell its parent; the first crashes before it marks the link. -/
def drainsTwice : List (NotifierStep none) :=
  (startsChild asksOnce ++
    [.apply linkingDriver asksOnce "i-sub-c1" ⟨3, .humanCompleted "i-sub-c1-h1" "" "" [] { id := "ann" }⟩ false,
      goesOnWith asksOnce 2, goesOnWith asksOnce 2]).map .system ++
    [.claim [completedLink] 0 5, .claim [completedLink] 0 6, .deliver 0 linkingDriver callsOther 10,
      .deliver 1 linkingDriver callsOther 11] ++
    [3, 3, 4, 4, 3, 3, 4, 4, 3].map (fun i => .system (goesOnWith asksOnce i)) ++ [.crash 0, .settle 1]

/-- The parent is told once, and the second drain marks the link. -/
theorem told_once_by_two_drains : ∃ steps x, (Notifiers.blank 0 : Notifiers none).Runs steps x ∧ x.told = [("i", "i-c1")] ∧
    ∃ k ∈ x.system.store.callLinks.getD [], k.notified = true ∧
      x.told.count (k.link.parentInstanceID, k.link.parentCommandID) ≤ 1 ∧
      ∃ inst, x.system.store.instances k.link.parentInstanceID = some inst ∧
        (inst.state.status.isTerminal = true ∨ ∀ t ∈ inst.state.tokens, t.awaitCommand ≠ k.link.parentCommandID) := by
  have hplay : Library.plays Notifiers.step (fun _ _ => True) (Notifiers.blank 0) drainsTwice
      (fun x => x.told == [("i", "i-c1")] && (x.system.store.callLinks.getD []).any (·.notified)) = true := by decide
  obtain ⟨x, hrun, hQ⟩ := Library.runs_of_plays hplay
  rw [Bool.and_eq_true] at hQ
  obtain ⟨k, hk, hn⟩ := List.any_eq_true.mp hQ.2
  obtain ⟨honce, -, hmarked⟩ := child_end_told_once (fun g (h : g ∈ (none : Option IDGenerator)) => nomatch h) hrun
  exact ⟨drainsTwice, x, hrun, beq_iff_eq.mp hQ.1, k, hk, hn, honce k hk, hmarked k hk hn⟩

end Wrkflw
