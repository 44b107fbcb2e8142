import Wrkflw.Library.Pool
import Wrkflw.Property.MessageStarts
import Wrkflw.Runtime.Chaining

/-!
# Every hop starts its successor once

A terminal event may be delivered any number of times, at once and again after failures at any point, beside every other call
of the drivers and whether or not links are kept or pruned.

* `hops_start_once` : a delivery that is acknowledged has left its successor in the store, and no two deliveries of one hop
  have created it;
* `lineage_names_successor` : where the policy gives one answer for a hop and links are not pruned, the one link of the hop
  says what its successor is started with.
-/

namespace Wrkflw

open Library

variable {gen : Option IDGenerator}

/-! ## The ids of successors -/

theorem successorID_inj {p p' : String} {o o' : ChainOutcome} (h : successorID p o = successorID p' o') :
    p = p' ∧ o = o' := by
  have hrev := congrArg (fun s => s.toList.reverse) h
  simp only [successorID, String.toList_append, List.reverse_append] at hrev
  have ho : o = o' := by
    cases o <;> cases o' <;> first
      | rfl
      | (exfalso; revert hrev; simp [ChainOutcome.toText])
  subst ho
  have hname := List.reverse_inj.mp (List.append_cancel_left (List.append_cancel_left hrev))
  exact ⟨String.toList_inj.mp hname, rfl⟩

/-! ## The call of a start -/

section Start
variable {driver : ProcessDriver gen} {fuel : Nat} {d : ProcessDefinition} {s : InstanceState} {t : Trigger}
  {y z : System gen} {choice : Choice gen} {w : World} {c c' : Delivery gen} {m : MemInstanceStore}
  {child : Option (Delivery gen)} {id : String} {p : Nat}

theorem prepare_error_sentinel {e : DriverError} (h : driver.prepare fuel d s t = some (.error e)) : e.sentinel = none := by
  unfold ProcessDriver.prepare at h
  split at h
  · cases h
    rfl
  · split at h
    · split at h
      · cases h
      · cases h
        rfl
    · rename_i r0 hstep
      have hdo := Option.some.inj h
      cases hvalid : validateTaskCommands r0.commands with
      | error e' =>
        rw [hvalid] at hdo
        cases hdo
        exact (validateTaskCommands_error hvalid).1
      | ok u =>
        cases hres : driver.resolveHumanCandidates r0.state r0.commands with
        | error e' =>
          rw [hvalid, hres] at hdo
          cases hdo
          exact (resolveHumanCandidates_error hres).1
        | ok state =>
          rw [hvalid, hres] at hdo
          cases hdo

/-- The store refuses to create only what it has. -/
theorem writes_refused {l : Loop} {r : StepResult} {outcome : Option CallOutcome} {e : StoreError} (hcreate : l.create = true)
    (h : Delivery.writes m l t r outcome = .error e) : m.instances r.state.instanceID ≠ none := by
  unfold Delivery.writes at h
  dsimp only at h
  rw [if_pos hcreate] at h
  unfold MemInstanceStore.create at h
  split at h
  · rename_i inst hinst
    exact fun hnone => by cases hinst.symm.trans hnone
  · cases h

/-- A start that is told that its instance exists is told the truth. -/
def Delivery.ToldTruly (m : MemInstanceStore) (c : Delivery gen) : Prop :=
  ∀ e, c.stage = .done (.error e) → e.sentinel = some .instanceExists → m.instances c.instanceID ≠ none

theorem CreatePhase.told (hsound : y.Sound) (hc : c ∈ y.calls) (hretries : c.retries = 0) (hphase : CreatePhase y.store c)
    (h : c.Does y w m c' child) : c'.ToldTruly m := by
  obtain ⟨-, hid, hphase', -⟩ := hphase.does hsound hc hretries h
  intro e hdone hexists
  cases hphase' with
  | waiting l hstage => exact nomatch hstage.symm.trans hdone
  | refused e' fuel hstage hnone hprep =>
    cases hstage.symm.trans hdone
    rw [prepare_error_sentinel hprep] at hexists
    cases hexists
  | created hsome hstored hlater => exact hstored
  | duplicate e' hstage hnone hexists' =>
    rw [hid]
    cases hphase with
    | created hsome hstored hlater => exact h.stored hsound hc hstored
    | refused e0 fuel hs => cases h <;> simp_all
    | duplicate e0 hs => cases h <;> simp_all
    | waiting l hs hcreate hst hqueue hnone0 =>
      cases h with
      | finishes l' hs' hq =>
        cases hs.symm.trans hs'
        cases hqueue.symm.trans hq
      | refused l' hs' t queue hq e0 hprep =>
        rw [Delivery.returns_of_not_concurrent (prepare_error hprep)] at hdone
        cases hdone
        rw [prepare_error_sentinel hprep] at hexists
        cases hexists
      | loses l' hs' t queue hq r outcome hprep e0 hwrite =>
        cases hs.symm.trans hs'
        have hstored := writes_refused hcreate hwrite
        have hr := prepare_sound (hsound.held c hc l (by rw [hs]; rfl)) hprep
        rwa [hr.instanceID] at hstored
      | timersFail l' hs' t queue hq r outcome hprep _ version hwrite e0 hfail =>
        have hdeeds : ((c.notesCommit t).returns (e0.wrap "workflow-runtime: commit: ")).deeds = (c.notesCommit t).deeds :=
          Delivery.returns_deeds hretries
        rw [hdeeds] at hnone
        exact absurd hnone (List.append_ne_nil_of_right_ne_nil _ (List.cons_ne_nil _ _))
      | commits l' hs' t queue hq r outcome hprep _ version hwrite => cases hdone
      | notFound hs' => exact nomatch hs.symm.trans hs'
      | loads hs' => exact nomatch hs.symm.trans hs'
      | performed l' hs' => exact nomatch hs.symm.trans hs'
      | skips l' cmd commands hs' => exact nomatch hs.symm.trans hs'
      | performFails l' cmd commands hs' => exact nomatch hs.symm.trans hs'
      | performs l' cmd commands hs' => exact nomatch hs.symm.trans hs'
      | spawns l' cmd commands hs' => exact nomatch hs.symm.trans hs'
      | resumes l' commandID childID commands callee hs' => exact nomatch hs.symm.trans hs'

/-- The call at the place starts the instance. -/
def System.Starts (y : System gen) (id : String) (p : Nat) : Prop :=
  ∃ c, y.calls[p]? = some c ∧ c.instanceID = id ∧ c.retries = 0 ∧ CreatePhase y.store c ∧ c.ToldTruly y.store

theorem System.Starts.step (hsound : y.Sound) (h : y.Starts id p) (hstep : y.step choice = some z) : z.Starts id p := by
  obtain ⟨c, hget, hid, hretries, hphase, htold⟩ := h
  rcases System.step_call hstep hget with ⟨hsame, -⟩ | ⟨w, c', child, -, hget', hdoes⟩
  · refine ⟨c, hsame, hid, hretries, hphase.beside (System.step_stored hsound hstep), ?_⟩
    exact fun e hdone hexists => System.step_stored hsound hstep (htold e hdone hexists)
  · obtain ⟨hr, hid', hphase', -⟩ := hphase.does hsound (List.mem_of_getElem? hget) hretries hdoes
    exact ⟨c', hget', hid'.trans hid, hr, hphase', hphase.told hsound (List.mem_of_getElem? hget) hretries hdoes⟩

/-- The call at the place has created its instance. -/
def System.HasCreated (y : System gen) (p : Nat) : Prop := ∃ c, y.calls[p]? = some c ∧ c.created

theorem System.Starts.created_before (hsound : y.Sound) (h : y.Starts id p) (hstep : y.step choice = some z)
    (hafter : z.HasCreated p) : y.HasCreated p ∨ (∃ w, choice = .advance p w) ∧ y.store.instances id = none := by
  obtain ⟨c, hget, hid, hretries, hphase, -⟩ := h
  obtain ⟨ca, hgeta, hcreated⟩ := hafter
  rcases System.step_call hstep hget with ⟨hsame, -⟩ | ⟨w, c', child, hchoice, hget', hdoes⟩
  · cases hsame.symm.trans hgeta
    exact .inl ⟨c, hget, hcreated⟩
  · cases hget'.symm.trans hgeta
    obtain ⟨-, -, -, hborn⟩ := hphase.does hsound (List.mem_of_getElem? hget) hretries hdoes
    rcases hborn hcreated with hwas | hnone
    · exact .inl ⟨c, hget, hwas⟩
    · exact .inr ⟨⟨w, hchoice⟩, hid ▸ hnone⟩

theorem System.Starts.stored (h : y.Starts id p) (hcreated : y.HasCreated p) : y.store.instances id ≠ none := by
  obtain ⟨c, hget, hid, -, hphase, -⟩ := h
  obtain ⟨c', hget', hsome⟩ := hcreated
  cases hget.symm.trans hget'
  exact hid ▸ hphase.stored hsome

/-- A start that the chainer acknowledges has its instance in the store. -/
theorem System.Starts.acked (h : y.Starts id p) {c : Delivery gen} (hget : y.calls[p]? = some c)
    {result : Except DriverError InstanceState} (hdone : c.stage = .done result) (hack : chainStageOf result = .acked) :
    y.store.instances id ≠ none := by
  obtain ⟨c', hget', hid, -, hphase, htold⟩ := h
  cases hget.symm.trans hget'
  rw [← hid]
  cases result with
  | error e =>
    by_cases hexists : e.sentinel = some .instanceExists
    · exact htold e hdone hexists
    · rw [chainStageOf, if_neg hexists] at hack
      cases hack
  | ok st =>
    cases hphase with
    | waiting l hstage => exact nomatch hstage.symm.trans hdone
    | refused e fuel hstage => exact nomatch hstage.symm.trans hdone
    | duplicate e hstage => exact nomatch hstage.symm.trans hdone
    | created hsome hstored hlater => exact hstored

end Start

/-! ## The statements of a delivery -/

section Inversion
variable {x z : ChainRoom gen} {i : Nat}

theorem ChainRoom.record_some {now : Time} {fails : Bool} (h : x.step (.record i now fails) = some z) :
    ∃ a, x.handlings[i]? = some a ∧ z = x.record i a now fails := by
  unfold ChainRoom.step at h
  dsimp only at h
  split at h
  · rename_i a ha
    split at h
    · exact ⟨a, ha, (Option.some.inj h).symm⟩
    · cases h
  · cases h

theorem ChainRoom.drive_some {driver : ProcessDriver gen} {now : Time} {admitted : Bool}
    (h : x.step (.drive i driver now admitted) = some z) :
    ∃ a, x.handlings[i]? = some a ∧ a.stage = .recorded ∧ z = x.drive i a driver now admitted := by
  unfold ChainRoom.step at h
  dsimp only at h
  split at h
  · rename_i a ha
    split at h
    · rename_i hst
      exact ⟨a, ha, hst, (Option.some.inj h).symm⟩
    · cases h
  · cases h

theorem ChainRoom.finish_some (h : x.step (.finish i) = some z) : ∃ a result, x.handlings[i]? = some a ∧
    x.returned a = some result ∧ z = { x with handlings := x.handlings.set i { a with stage := chainStageOf result } } := by
  unfold ChainRoom.step at h
  dsimp only at h
  split at h
  · rename_i a ha
    split at h
    · obtain ⟨result, hret, rfl⟩ := Option.map_eq_some_iff.mp h
      exact ⟨a, result, ha, hret, rfl⟩
    · cases h
  · cases h

end Inversion

/-! ## Deliveries -/

namespace ChainRoom
variable {x : ChainRoom gen} {a : Handling} {i : Nat}

/-- The delivery's call has created the successor. -/
def Created (x : ChainRoom gen) (a : Handling) : Prop := ∃ p, a.place = some p ∧ x.system.HasCreated p

structure Kept (x : ChainRoom gen) : Prop where
  sound : x.system.Sound
  placed : ∀ a ∈ x.handlings, ∀ p, a.place = some p → x.system.Starts a.successor p
  acked : ∀ a ∈ x.handlings, a.stage = .acked → x.system.store.instances a.successor ≠ none
  /-- Each delivery has a call of its own. -/
  apart : ∀ {i j : Nat} {a b : Handling} {p : Nat}, x.handlings[i]? = some a → x.handlings[j]? = some b → a.place = some p →
    b.place = some p → i = j
  once : ∀ {i j : Nat} {a b : Handling}, x.handlings[i]? = some a → x.handlings[j]? = some b → a.successor = b.successor →
    x.Created a → x.Created b → i = j

theorem kept_blank (callLinks : Option MemCallLinks) (recording : Bool) :
    (blank callLinks recording : ChainRoom gen).Kept where
  sound := System.blank_sound callLinks
  placed a ha := by cases ha
  acked a ha := by cases ha
  apart ha := by cases ha
  once ha := by cases ha

namespace Kept

/-- A step of the drivers. -/
theorem system (h : x.Kept) (choice : Choice gen) {z : System gen} (hstep : x.system.step choice = some z) :
    Kept { x with system := z } where
  sound := h.sound.step hstep
  placed a ha p hp := (h.placed a ha p hp).step h.sound hstep
  acked a ha hst := System.step_stored h.sound hstep (h.acked a ha hst)
  apart := h.apart
  once := by
    rintro i j a b ha hb hsucc ⟨p, hp, hca⟩ ⟨q, hq, hcb⟩
    have hsa := h.placed a (List.mem_of_getElem? ha) p hp
    have hsb := h.placed b (List.mem_of_getElem? hb) q hq
    rcases hsa.created_before h.sound hstep hca with hwasa | ⟨⟨w, hia⟩, hnonea⟩
    · rcases hsb.created_before h.sound hstep hcb with hwasb | ⟨-, hnoneb⟩
      · exact h.once ha hb hsucc ⟨p, hp, hwasa⟩ ⟨q, hq, hwasb⟩
      · exact absurd (hsucc ▸ hnoneb) (hsa.stored hwasa)
    · rcases hsb.created_before h.sound hstep hcb with hwasb | ⟨⟨w', hib⟩, -⟩
      · exact absurd (hsucc ▸ hnonea) (hsb.stored hwasb)
      · -- one step advances one call
        cases hia.symm.trans hib
        exact h.apart ha hb hp hq

/-- A delivery goes on without the drivers. -/
theorem update (h : x.Kept) (ha : x.handlings[i]? = some a) (a' : Handling) (hevent : a'.event = a.event)
    (hplace : a'.place = a.place) (hacked : a'.stage = .acked → x.system.store.instances a.successor ≠ none)
    (links : Option (List ChainLink)) :
    Kept { x with links := links, handlings := x.handlings.set i a' } := by
  have hsucc : a'.successor = a.successor := by
    unfold Handling.successor
    rw [hevent]
  have hmem : a ∈ x.handlings := List.mem_of_getElem? ha
  -- every delivery has the place and the successor it had
  have hback : ∀ {j : Nat} {b : Handling}, (x.handlings.set i a')[j]? = some b →
      ∃ b' : Handling, x.handlings[j]? = some b' ∧ b'.place = b.place ∧ b'.successor = b.successor := by
    intro j b hb
    rcases getElem?_set_cases hb with ⟨rfl, rfl⟩ | ⟨-, hb⟩
    · exact ⟨a, ha, hplace.symm, hsucc.symm⟩
    · exact ⟨b, hb, rfl, rfl⟩
  refine ⟨h.sound, ?_, ?_, ?_, ?_⟩
  · refine forall_mem_set (P := fun b : Handling => ∀ p, b.place = some p → x.system.Starts b.successor p) h.placed ?_
    intro p hp
    rw [hsucc]
    exact h.placed a hmem p (hplace ▸ hp)
  · refine forall_mem_set (P := fun b : Handling => b.stage = .acked → x.system.store.instances b.successor ≠ none) h.acked ?_
    intro hst
    rw [hsucc]
    exact hacked hst
  · intro j k b c p hb hc hbp hcp
    obtain ⟨b', hb', hplaceb, -⟩ := hback hb
    obtain ⟨c', hc', hplacec, -⟩ := hback hc
    exact h.apart hb' hc' (hplaceb.trans hbp) (hplacec.trans hcp)
  · rintro j k b c hb hc hbc ⟨p, hp, hcb⟩ ⟨q, hq, hcc⟩
    obtain ⟨b', hb', hplaceb, hsuccb⟩ := hback hb
    obtain ⟨c', hc', hplacec, hsuccc⟩ := hback hc
    exact h.once hb' hc' (hsuccb.trans (hbc.trans hsuccc.symm)) ⟨p, hplaceb.trans hp, hcb⟩ ⟨q, hplacec.trans hq, hcc⟩

/-- A delivery comes to a successor. -/
theorem deliver (h : x.Kept) (env : Envelope) (decision : Option SuccessorDecision) : (x.deliver env decision).Kept := by
  unfold ChainRoom.deliver
  split
  · rename_i event decision _
    -- the new delivery has no call yet
    have hnew : ∀ {j : Nat} {b : Handling}, (x.handlings ++ [{ event := event, decision := decision }])[j]? = some b →
        x.handlings[j]? = some b ∨ b = { event := event, decision := decision } := by
      intro j b hb
      rcases Nat.lt_or_ge j x.handlings.length with hj | hj
      · rw [List.getElem?_append_left hj] at hb
        exact .inl hb
      · rw [List.getElem?_append_right hj] at hb
        exact .inr (List.mem_singleton.mp (List.mem_of_getElem? hb))
    refine ⟨h.sound, ?_, ?_, ?_, ?_⟩
    · exact forall_mem_concat h.placed (fun p hp => by cases hp)
    · exact forall_mem_concat h.acked (fun hst => by cases hst)
    · intro j k b c p hb hc hbp hcp
      rcases hnew hb with hb | rfl
      · rcases hnew hc with hc | rfl
        · exact h.apart hb hc hbp hcp
        · cases hcp
      · cases hbp
    · rintro j k b c hb hc hbc ⟨p, hp, hcb⟩ ⟨q, hq, hcc⟩
      rcases hnew hb with hb | rfl
      · rcases hnew hc with hc | rfl
        · exact h.once hb hc hbc ⟨p, hp, hcb⟩ ⟨q, hq, hcc⟩
        · cases hq
      · cases hp
  · exact h

/-- The call of a delivery begins. -/
theorem drive (h : x.Kept) (ha : x.handlings[i]? = some a) (driver : ProcessDriver gen) (now : Time) (admitted : Bool) :
    (x.drive i a driver now admitted).Kept := by
  unfold ChainRoom.drive
  split
  · have hbegun := h.system (.start driver a.decision.definition a.successor now a.decision.vars "") rfl
    have hnew : (x.system.calls ++ [.create driver a.decision.definition a.successor
        ⟨now, .startInstance a.decision.vars ""⟩ 0 none])[x.system.calls.length]? =
          some (.create driver a.decision.definition a.successor ⟨now, .startInstance a.decision.vars ""⟩ 0 none) := by
      rw [List.getElem?_append_right (Nat.le_refl _), Nat.sub_self]
      rfl
    have hearlier : ∀ b ∈ x.handlings, ∀ p, b.place = some p → p < x.system.calls.length := by
      intro b hb p hp
      obtain ⟨c, hget, -⟩ := h.placed b hb p hp
      exact (List.getElem?_eq_some_iff.mp hget).1
    refine ⟨hbegun.sound, ?_, ?_, ?_, ?_⟩
    · refine forall_mem_set (P := fun b : Handling => ∀ p, b.place = some p → System.Starts _ b.successor p) hbegun.placed ?_
      intro p hp
      cases hp
      refine ⟨_, hnew, rfl, rfl, .waiting _ rfl rfl rfl rfl rfl, ?_⟩
      intro e hdone
      cases hdone
    · refine forall_mem_set
        (P := fun b : Handling => b.stage = .acked → x.system.store.instances b.successor ≠ none) h.acked ?_
      intro hst
      cases hst
    · intro j k b c p hb hc hbp hcp
      rcases getElem?_set_cases hb with ⟨rfl, rfl⟩ | ⟨-, hbx⟩
      · rcases getElem?_set_cases hc with ⟨rfl, rfl⟩ | ⟨-, hcx⟩
        · rfl
        · cases hbp
          exact absurd (hearlier c (List.mem_of_getElem? hcx) _ hcp) (Nat.lt_irrefl _)
      · rcases getElem?_set_cases hc with ⟨rfl, rfl⟩ | ⟨-, hcx⟩
        · cases hcp
          exact absurd (hearlier b (List.mem_of_getElem? hbx) _ hbp) (Nat.lt_irrefl _)
        · exact h.apart hbx hcx hbp hcp
    · -- the new call has created nothing
      have hnone : ∀ {b : Handling}, b.place = some x.system.calls.length → ¬ Created { x with
          system.calls := x.system.calls ++ [.create driver a.decision.definition a.successor
            ⟨now, .startInstance a.decision.vars ""⟩ 0 none] } b := by
        rintro b hb ⟨p, hp, c, hget, hcreated⟩
        cases hb.symm.trans hp
        cases hnew.symm.trans hget
        exact hcreated rfl
      rintro j k b c hb hc hbc hcb hcc
      rcases getElem?_set_cases hb with ⟨rfl, rfl⟩ | ⟨-, hbx⟩
      · exact absurd hcb (hnone rfl)
      · rcases getElem?_set_cases hc with ⟨rfl, rfl⟩ | ⟨-, hcx⟩
        · exact absurd hcc (hnone rfl)
        · exact hbegun.once hbx hcx hbc hcb hcc
  · exact h.update ha { a with stage := .nacked } rfl rfl (fun hst => by cases hst) x.links

/-- The call of a delivery has returned. -/
theorem finish (h : x.Kept) (ha : x.handlings[i]? = some a) {result : Except DriverError InstanceState}
    (hret : x.returned a = some result) :
    Kept { x with handlings := x.handlings.set i { a with stage := chainStageOf result } } := by
  refine h.update ha { a with stage := chainStageOf result } rfl rfl (fun hack => ?_) x.links
  unfold returned at hret
  split at hret
  · rename_i c hget
    obtain ⟨p, hp, hget⟩ := Option.bind_eq_some_iff.mp hget
    split at hret
    · rename_i hdone
      cases hret
      exact (h.placed a (List.mem_of_getElem? ha) p hp).acked hget hdone hack
    · cases hret
  · cases hret

theorem step (h : x.Kept) {choice : ChainChoice gen} {z : ChainRoom gen} (hstep : x.step choice = some z) : z.Kept := by
  cases choice with
  | system choice =>
    obtain ⟨y, hy, rfl⟩ := Option.map_eq_some_iff.mp hstep
    exact h.system _ hy
  | deliver env decision =>
    cases hstep
    exact h.deliver env decision
  | record i now fails =>
    obtain ⟨a, ha, rfl⟩ := record_some hstep
    unfold ChainRoom.record
    split
    · exact h.update ha { a with stage := .recorded } rfl rfl (fun hst => by cases hst) x.links
    · split
      · exact h.update ha { a with stage := .nacked } rfl rfl (fun hst => by cases hst) x.links
      · exact h.update ha { a with stage := .recorded } rfl rfl (fun hst => by cases hst) _
  | drive i driver now admitted =>
    obtain ⟨a, ha, -, rfl⟩ := drive_some hstep
    exact h.drive ha driver now admitted
  | finish i =>
    obtain ⟨a, result, ha, hret, rfl⟩ := finish_some hstep
    exact h.finish ha hret
  | pruneChainLinks cutoff =>
    cases hstep
    exact ⟨h.sound, h.placed, h.acked, h.apart, h.once⟩

end Kept
end ChainRoom

/-- A delivery that is acknowledged has left its successor in the store; of all deliveries of a hop one at most has created
it; and different hops have different successors. -/
theorem hops_start_once {callLinks : Option MemCallLinks} {recording : Bool} {choices : List (ChainChoice gen)}
    {x : ChainRoom gen} (h : Library.Runs ChainRoom.step (fun _ _ => True) (ChainRoom.blank callLinks recording) choices x) :
    (∀ a ∈ x.handlings, a.stage = .acked → x.system.store.instances a.successor ≠ none) ∧
    (∀ (i j : Nat) (a b : Handling), x.handlings[i]? = some a → x.handlings[j]? = some b → a.hop = b.hop →
      x.Created a → x.Created b → i = j) ∧
    ∀ a ∈ x.handlings, ∀ b ∈ x.handlings, a.successor = b.successor → a.hop = b.hop := by
  have hk : x.Kept := h.invariant (ChainRoom.kept_blank callLinks recording) (fun hx _ hz => hx.step hz)
  refine ⟨hk.acked, ?_, ?_⟩
  · intro i j a b ha hb hhop hca hcb
    have hsucc : a.successor = b.successor := by
      unfold Handling.hop at hhop
      unfold Handling.successor
      rw [(Prod.mk.inj hhop).1, (Prod.mk.inj hhop).2]
    exact hk.once ha hb hsucc hca hcb
  · intro a _ b _ hsucc
    obtain ⟨hpred, houtcome⟩ := successorID_inj hsucc
    unfold Handling.hop
    rw [hpred, houtcome]

/-- A definition whose instances end in their first step. -/
def closesAtOnce : ProcessDefinition := rowOf "next" []

/-- The instance has completed. -/
def completedEnvelope : Envelope where
  id := "1"
  topic := "instance.completed"
  metadata := [("instance_id", "p")]
  body := .obj []

/-- The event comes twice; the second delivery overtakes the first behind its link, and each finds a successor of its own
making or one that exists. -/
def deliversTwice : List (ChainChoice none) :=
  [.deliver completedEnvelope (some ⟨closesAtOnce, []⟩), .record 0 1 false,
    .deliver completedEnvelope (some ⟨closesAtOnce, []⟩),
    .record 1 2 false, .drive 1 plainDriver 3 true, .drive 0 plainDriver 4 true] ++
    [0, 0, 0, 0, 1].map (fun p => .system (.advance p { now := 9, fuel := 50, definition := closesAtOnce })) ++
    [.finish 0, .finish 1]

theorem overtaken_delivery_creates_nothing : ∃ choices x a b,
    Library.Runs ChainRoom.step (fun _ _ => True) (ChainRoom.blank none true : ChainRoom none) choices x ∧
    x.handlings[0]? = some a ∧ x.handlings[1]? = some b ∧ a.stage = .acked ∧ b.stage = .acked ∧
    x.Created b ∧ ¬ x.Created a ∧ x.system.store.instances a.successor ≠ none := by
  have hplay : plays ChainRoom.step (fun _ _ => True) (ChainRoom.blank none true : ChainRoom none) deliversTwice
      (fun x => decide (x.handlings.map (fun a => (a.hop, a.stage, a.place)) =
        [(("p", .completed), .acked, some 1), (("p", .completed), .acked, some 0)]) &&
          x.system.calls[0]?.any (fun c => !c.deeds.committed.isEmpty)) = true := by decide
  obtain ⟨x, hrun, hQ⟩ := runs_of_plays hplay
  rw [Bool.and_eq_true, decide_eq_true_eq, Option.any_eq_true] at hQ
  obtain ⟨hall, c, hc, hcommitted⟩ := hQ
  obtain ⟨hacked, honce, -⟩ := hops_start_once hrun
  have hat : ∀ i : Nat, (x.handlings[i]?).map (fun a => (a.hop, a.stage, a.place)) =
      [(("p", ChainOutcome.completed), ChainStage.acked, some 1), (("p", .completed), .acked, some 0)][i]? := by
    intro i
    rw [← hall, List.getElem?_map]
  obtain ⟨a, ha, hfa⟩ := Option.map_eq_some_iff.mp (hat 0)
  obtain ⟨b, hb, hfb⟩ := Option.map_eq_some_iff.mp (hat 1)
  simp only [Prod.mk.injEq] at hfa hfb
  have hcb : x.Created b := by
    refine ⟨0, hfb.2.2, c, hc, fun hnil => ?_⟩
    rw [hnil] at hcommitted
    cases hcommitted
  refine ⟨_, x, a, b, hrun, ha, hb, hfa.2.1, hfb.2.1, hcb, fun hca => ?_, hacked a (List.mem_of_getElem? ha) hfa.2.1⟩
  exact absurd (honce 0 1 a b ha hb (hfa.1.trans hfb.1.symm) hca hcb) (by decide)

/-! ## Lineage -/

/-- The two deliveries were given the same successor. -/
def Handling.Agrees (a : Handling) (decision : SuccessorDecision) : Prop :=
  a.decision.definition.qualifier = decision.definition.qualifier ∧ a.decision.vars = decision.vars

/-- The policy answers the same at every delivery of a hop, and links are not pruned. -/
def ChainRoom.Steady (x : ChainRoom gen) : ChainChoice gen → Prop
  | .deliver env (some decision) => ∀ event ∈ chainEventOf env, ∀ a ∈ x.handlings,
    a.hop = (event.predecessorID, event.outcome) → a.Agrees decision
  | .pruneChainLinks _ => False
  | _ => True

namespace ChainRoom
variable {x z : ChainRoom gen} {a : Handling} {i : Nat} {links : List ChainLink}

structure Traced (x : ChainRoom gen) (links : List ChainLink) : Prop where
  kept : x.links = some links
  apart : (links.map ChainLink.hop).Nodup
  named : ∀ l ∈ links, l.successorID = successorID l.predecessorID l.outcome
  recorded : ∀ a ∈ x.handlings, a.stage = .recorded ∨ a.place ≠ none → ∃ l ∈ links, l.hop = a.hop
  /-- A link was recorded for a delivery, which agrees with it. -/
  told : ∀ l ∈ links, ∃ a ∈ x.handlings, a.hop = l.hop
  agree : ∀ l ∈ links, ∀ a ∈ x.handlings, l.hop = a.hop →
    l.successorDefinitionRef = a.decision.definition.qualifier ∧ l.startVars = a.decision.vars
  steady : ∀ a ∈ x.handlings, ∀ b ∈ x.handlings, a.hop = b.hop → a.Agrees b.decision

namespace Traced

/-- A delivery goes on. -/
theorem update (h : x.Traced links) (ha : x.handlings[i]? = some a) (a' : Handling) (hevent : a'.event = a.event)
    (hdecision : a'.decision = a.decision) (hrec : a'.stage = .recorded ∨ a'.place ≠ none → ∃ l ∈ links, l.hop = a.hop)
    (system : System gen) : Traced { x with system := system, handlings := x.handlings.set i a' } links := by
  have hhop : a'.hop = a.hop := by
    unfold Handling.hop
    rw [hevent]
  have hmem : a ∈ x.handlings := List.mem_of_getElem? ha
  -- every delivery has the hop and the decision of one before
  have hback : ∀ b ∈ x.handlings.set i a', ∃ b' ∈ x.handlings, b'.hop = b.hop ∧ b'.decision = b.decision :=
    forall_mem_set (P := fun b : Handling => ∃ b' ∈ x.handlings, b'.hop = b.hop ∧ b'.decision = b.decision)
      (fun b hb => ⟨b, hb, rfl, rfl⟩) ⟨a, hmem, hhop.symm, hdecision.symm⟩
  refine ⟨h.kept, h.apart, h.named, ?_, ?_, ?_, ?_⟩
  · refine forall_mem_set (P := fun b : Handling => b.stage = .recorded ∨ b.place ≠ none → ∃ l ∈ links, l.hop = b.hop)
      h.recorded ?_
    rw [hhop]
    exact hrec
  · intro l hl
    obtain ⟨b, hb, hbl⟩ := h.told l hl
    obtain ⟨j, hj⟩ := List.getElem?_of_mem hb
    by_cases hij : i = j
    · subst hij
      cases ha.symm.trans hj
      exact ⟨a', List.mem_set (List.getElem?_eq_some_iff.mp ha).1 _, hhop.trans hbl⟩
    · refine ⟨b, List.mem_of_getElem? (i := j) ?_, hbl⟩
      rw [List.getElem?_set_ne hij]
      exact hj
  · intro l hl b hb hlb
    obtain ⟨b', hb', hhop', hdec'⟩ := hback b hb
    rw [← hdec']
    exact h.agree l hl b' hb' (hlb.trans hhop'.symm)
  · intro b hb c hc hbc
    obtain ⟨b', hb', hhopb, hdecb⟩ := hback b hb
    obtain ⟨c', hc', hhopc, hdecc⟩ := hback c hc
    have hagree := h.steady b' hb' c' hc' (hhopb.trans (hbc.trans hhopc.symm))
    unfold Handling.Agrees at hagree ⊢
    rwa [hdecb, hdecc] at hagree

theorem deliver (h : x.Traced links) (env : Envelope) (decision : Option SuccessorDecision)
    (hP : x.Steady (.deliver env decision)) : (x.deliver env decision).Traced links := by
  unfold ChainRoom.deliver
  split
  · rename_i event decision hevent
    have hsteady : ∀ a ∈ x.handlings, a.hop = (event.predecessorID, event.outcome) → a.Agrees decision := hP event hevent
    refine ⟨h.kept, h.apart, h.named, ?_, ?_, ?_, ?_⟩
    · refine forall_mem_concat h.recorded ?_
      rintro (hrec | hrec)
      · cases hrec
      · exact absurd rfl hrec
    · intro l hl
      obtain ⟨a, ha, hal⟩ := h.told l hl
      exact ⟨a, List.mem_append_left _ ha, hal⟩
    · intro l hl
      refine forall_mem_concat (h.agree l hl) (fun hla => ?_)
      obtain ⟨b, hb, hbl⟩ := h.told l hl
      obtain ⟨hq, hv⟩ := h.agree l hl b hb hbl.symm
      obtain ⟨hq', hv'⟩ := hsteady b hb (hbl.trans hla)
      exact ⟨hq.trans hq', hv.trans hv'⟩
    · refine forall_mem_concat (fun a ha => forall_mem_concat (h.steady a ha) ?_) ?_
      · exact hsteady a ha
      · refine forall_mem_concat (fun b hb hab => ?_) (fun _ => ⟨rfl, rfl⟩)
        obtain ⟨hq, hv⟩ := hsteady b hb hab.symm
        exact ⟨hq.symm, hv.symm⟩
  · exact h

/-- The link of a delivery is recorded. -/
theorem add (h : x.Traced links) (ha : a ∈ x.handlings) (now : Time) :
    Traced { x with links := some (recordLink links (a.link now)) } (recordLink links (a.link now)) ∧
      ∃ l ∈ recordLink links (a.link now), l.hop = a.hop := by
  have hhop : (a.link now).hop = a.hop := rfl
  unfold recordLink
  split
  · rename_i hany
    obtain ⟨l, hl, heq⟩ := List.any_eq_true.mp hany
    exact ⟨⟨rfl, h.apart, h.named, h.recorded, h.told, h.agree, h.steady⟩, l, hl, (beq_iff_eq.mp heq).trans hhop⟩
  · rename_i hnone
    have hfresh : ∀ l ∈ links, l.hop ≠ (a.link now).hop := by
      intro l hl heq
      exact hnone (List.any_eq_true.mpr ⟨l, hl, beq_iff_eq.mpr heq⟩)
    refine ⟨⟨rfl, ?_, ?_, ?_, ?_, ?_, h.steady⟩, a.link now, List.mem_append_right _ (List.mem_singleton.mpr rfl), hhop⟩
    · rw [List.map_append, List.nodup_append]
      refine ⟨h.apart, List.nodup_singleton _, ?_⟩
      rintro hop hold hop' hnew rfl
      obtain ⟨l, hl, rfl⟩ := List.mem_map.mp hold
      exact hfresh l hl (List.mem_singleton.mp hnew)
    · exact forall_mem_concat h.named rfl
    · intro b hb hrec
      obtain ⟨l, hl, hlb⟩ := h.recorded b hb hrec
      exact ⟨l, List.mem_append_left _ hl, hlb⟩
    · exact forall_mem_concat h.told ⟨a, ha, rfl⟩
    · exact forall_mem_concat h.agree (h.steady a ha)

theorem step (h : x.Traced links) {choice : ChainChoice gen} (hP : x.Steady choice) (hstep : x.step choice = some z) :
    ∃ links', z.Traced links' := by
  cases choice with
  | system choice =>
    obtain ⟨y, hy, rfl⟩ := Option.map_eq_some_iff.mp hstep
    exact ⟨links, h.kept, h.apart, h.named, h.recorded, h.told, h.agree, h.steady⟩
  | deliver env decision =>
    cases hstep
    exact ⟨links, h.deliver env decision hP⟩
  | record i now fails =>
    obtain ⟨a, ha, rfl⟩ := record_some hstep
    have hmem : a ∈ x.handlings := List.mem_of_getElem? ha
    unfold ChainRoom.record
    rw [h.kept]
    dsimp only
    split
    · refine ⟨links, h.kept ▸ h.update ha { a with stage := .nacked } rfl rfl ?_ x.system⟩
      rintro (hst | hplace)
      · cases hst
      · exact h.recorded a hmem (.inr hplace)
    · obtain ⟨hadd, hrec⟩ := h.add hmem now
      exact ⟨_, hadd.update ha { a with stage := .recorded } rfl rfl (fun _ => hrec) x.system⟩
  | drive i driver now admitted =>
    obtain ⟨a, ha, hst, rfl⟩ := drive_some hstep
    have hrec := h.recorded a (List.mem_of_getElem? ha) (.inl hst)
    unfold ChainRoom.drive
    split
    · exact ⟨links, h.update ha { a with stage := .driving, place := some x.system.calls.length } rfl rfl (fun _ => hrec) _⟩
    · exact ⟨links, h.update ha { a with stage := .nacked } rfl rfl (fun _ => hrec) x.system⟩
  | finish i =>
    obtain ⟨a, result, ha, hret, rfl⟩ := finish_some hstep
    refine ⟨links, h.update ha { a with stage := chainStageOf result } rfl rfl ?_ x.system⟩
    rintro (hst | hplace)
    · cases result with
      | ok st => cases hst
      | error e =>
        by_cases hexists : e.sentinel = some .instanceExists
        · rw [chainStageOf, if_pos hexists] at hst
          cases hst
        · rw [chainStageOf, if_neg hexists] at hst
          cases hst
    · exact h.recorded a (List.mem_of_getElem? ha) (.inr hplace)
  | pruneChainLinks cutoff => exact hP.elim

end Traced
end ChainRoom

/-- Where the policy answers the same at every delivery of a hop and links are kept and not pruned: a successor that was asked
for has one link, found by its id, and the link says what the successor was asked to start with. -/
theorem lineage_names_successor {callLinks : Option MemCallLinks} {choices : List (ChainChoice gen)} {x : ChainRoom gen}
    (h : Library.Runs ChainRoom.step ChainRoom.Steady (ChainRoom.blank callLinks true) choices x) {a : Handling}
    (ha : a ∈ x.handlings) (hdriven : a.place ≠ none) :
    ∃ links l, x.links = some links ∧ l ∈ links ∧ l.hop = a.hop ∧ l.successorID = a.successor ∧
      l.successorDefinitionRef = a.decision.definition.qualifier ∧ l.startVars = a.decision.vars ∧
      ∀ l' ∈ links, l'.successorID = a.successor → l' = l := by
  have hblank : (ChainRoom.blank callLinks true : ChainRoom gen).Traced [] :=
    ⟨rfl, List.nodup_nil, by simp, by simp [ChainRoom.blank], by simp, by simp, by simp [ChainRoom.blank]⟩
  obtain ⟨links, htraced⟩ : ∃ links, x.Traced links := h.invariant (I := fun x => ∃ links, x.Traced links) ⟨[], hblank⟩
    (fun ⟨links, hy⟩ hP hz => hy.step hP hz)
  obtain ⟨l, hl, hhop⟩ := htraced.recorded a ha (.inr hdriven)
  have hsucc : l.successorID = a.successor := by
    rw [htraced.named l hl]
    unfold ChainLink.hop Handling.hop at hhop
    unfold Handling.successor
    rw [(Prod.mk.inj hhop).1, (Prod.mk.inj hhop).2]
  obtain ⟨hq, hv⟩ := htraced.agree l hl a ha hhop
  refine ⟨links, l, htraced.kept, hl, hhop, hsucc, hq, hv, fun l' hl' hsucc' => ?_⟩
  have hid := hsucc'.trans hsucc.symm
  rw [htraced.named l' hl', htraced.named l hl] at hid
  obtain ⟨hpred, houtcome⟩ := successorID_inj hid
  refine List.inj_on_of_nodup_map htraced.apart hl' hl ?_
  unfold ChainLink.hop
  rw [hpred, houtcome]

instance ChainRoom.decidableSteady (x : ChainRoom gen) (choice : ChainChoice gen) : Decidable (x.Steady choice) :=
  match choice with
  | .deliver env (some decision) => inferInstanceAs (Decidable (∀ event ∈ chainEventOf env, ∀ a ∈ x.handlings,
      a.hop = (event.predecessorID, event.outcome) →
        a.decision.definition.qualifier = decision.definition.qualifier ∧ a.decision.vars = decision.vars))
  | .pruneChainLinks _ => .isFalse id
  | .system _ | .deliver _ none | .record .. | .drive .. | .finish _ => .isTrue trivial

/-- Both deliveries are told of the one link. -/
theorem one_link_for_two_deliveries : ∃ choices x a links l,
    Library.Runs ChainRoom.step ChainRoom.Steady (ChainRoom.blank none true : ChainRoom none) choices x ∧
    x.handlings.length = 2 ∧
    a ∈ x.handlings ∧ x.links = some links ∧ l ∈ links ∧ l.successorID = a.successor ∧
    l.successorDefinitionRef = a.decision.definition.qualifier := by
  have hplay : plays ChainRoom.step ChainRoom.Steady (ChainRoom.blank none true : ChainRoom none) deliversTwice
      (fun x => decide (x.handlings.length = 2) && x.handlings[0]?.any (fun a => a.place.isSome)) = true := by decide
  obtain ⟨x, hrun, hQ⟩ := runs_of_plays hplay
  rw [Bool.and_eq_true, decide_eq_true_eq, Option.any_eq_true] at hQ
  obtain ⟨htwo, a, ha, hplace⟩ := hQ
  obtain ⟨links, l, hlinks, hl, -, hsucc, hq, -⟩ := lineage_names_successor hrun (List.mem_of_getElem? ha)
    (Option.isSome_iff_ne_none.mp hplace)
  exact ⟨_, x, a, links, l, hrun, htwo, List.mem_of_getElem? ha, hlinks, hl, hsucc, hq⟩

end Wrkflw
