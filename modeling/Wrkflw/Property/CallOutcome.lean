import Wrkflw.Property.CallLinks
import Wrkflw.Runtime.Notifier

/-!
# What a parent is told of its child

The parent of a child instance is told of its end by a notifier, which reads it from the child's link, or by the loop that
started the child: at once when the child cannot be started, but also when the child's first burst returns an error. That
error says nothing about the child, which may be stored and running by then.

* `Exchange.Delivers` : a trigger of a child's end that an errand gives to a parent;
* `Exchange.Truthful` : the invariant: a link and a claimed link tell of an end on record, and the child of a waiting call
  that failed was never stored or has ended badly;
* `parents_are_told_the_truth` : so it is in every run where no child's call fails once the child is stored.
-/

namespace Wrkflw

variable {ends : List (String × Status)} {childID : String}

variable {gen : Option IDGenerator}

/-! ## Errands -/

def Stage.callee? : Stage → Option Nat
  | .child _ _ _ _ callee => some callee
  | _ => none

def Stage.failed : Stage → Bool
  | .done (.error _) => true
  | _ => false

/-- The call at a place is that of a child, and its parent waits for it. -/
def System.hasParent (y : System gen) (j : Nat) : Bool := y.calls.any (fun c => c.stage.callee? == some j)

/-- The instance is stored as ended, and not as completed. -/
def MemInstanceStore.endedBadly (m : MemInstanceStore) (id : String) : Bool :=
  match m.instances id with
  | some inst => inst.state.status.isTerminal && inst.state.status != .completed
  | none => false

/-- The call has failed after a commit, and its instance has not ended badly. -/
def System.failsStored (z : System gen) (j : Nat) : Bool :=
  match z.calls[j]? with
  | none => false
  | some k => k.stage.failed && !k.deeds.committed.isEmpty && !z.store.endedBadly k.instanceID

/-- The transition makes the call of a stored child fail. -/
def System.failsChild (y : System gen) (j : Nat) (w : World) : Bool :=
  y.hasParent j && (match y.advance j w with
    | some z => z.failsStored j
    | none => false)

/-- Every driver has the call-link store. -/
def Exchange.Linking (_ : Exchange gen) : Errand gen → Prop
  | .system (.apply driver ..) | .system (.start driver ..) | .notify driver .. => driver.callLinks = true
  | _ => True

/-- No call of a child fails once the child is stored, unless the child has ended badly. -/
def Exchange.ChildrenHold (x : Exchange gen) : Errand gen → Prop
  | .system (.advance j w) => x.system.failsChild j w = false
  | _ => True

instance (x : Exchange gen) (errand : Errand gen) : Decidable (x.Linking errand) := by
  unfold Exchange.Linking
  split <;> infer_instance

instance (x : Exchange gen) (errand : Errand gen) : Decidable (x.ChildrenHold errand) := by
  unfold Exchange.ChildrenHold
  split <;> infer_instance

/-- Both. -/
def Exchange.Steady (x : Exchange gen) (errand : Errand gen) : Prop := x.Linking errand ∧ x.ChildrenHold errand

instance (x : Exchange gen) (errand : Errand gen) : Decidable (x.Steady errand) := by
  unfold Exchange.Steady
  infer_instance

/-- The errand gives a parent a trigger of its child's end; `created` says whether the child was ever stored. -/
inductive Exchange.Delivers (x : Exchange gen) : Errand gen → (created : Bool) → (childID : String) → TriggerBody → Prop
  | returned {i : Nat} {w : World} {c k : Delivery gen} {l : Loop} {commandID childID : String} {commands : List Command}
      {callee : Nat} {r : Except DriverError InstanceState} {t : Trigger} (hc : x.system.calls[i]? = some c)
      (hstage : c.stage = .child l commandID childID commands callee) (hk : x.system.calls[callee]? = some k)
      (hdone : k.stage = .done r) (ht : c.driver.afterChild w commandID childID r = some t) :
      Delivers x (.system (.advance i w)) (!k.deeds.committed.isEmpty) childID t.body
  | refused {i : Nat} {w : World} {c : Delivery gen} {l : Loop} {commandID : String} {defRef : Qualifier} {input : Vars}
      {commands : List Command} {t : Trigger} (hc : x.system.calls[i]? = some c)
      (hstage : c.stage = .perform l (.startSubInstance commandID defRef input :: commands))
      (ht : c.driver.performStartSubInstance w (x.system.store.callLinks.getD []) c.depth c.definition l.st commandID defRef
        input = .next (some t)) :
      Delivers x (.system (.advance i w)) false (c.driver.childInstanceIDFor l.st.instanceID commandID) t.body
  | notified {driver : ProcessDriver gen} {d : ProcessDefinition} {p : PendingNotify} {now : Time} {retrying : Bool}
      (hp : p ∈ x.claimed) : Delivers x (.notify driver d p now retrying) true p.link.childInstanceID (p.trigger now).body

/-- The instance was once stored with the end that an outcome tells. -/
def Witnessed (ends : List (String × Status)) (id : String) (completed : Bool) : Prop :=
  if completed then (id, .completed) ∈ ends else ∃ st, st ≠ .completed ∧ (id, st) ∈ ends

theorem Witnessed.mono {more : List (String × Status)} {id : String} {completed : Bool} (h : Witnessed ends id completed) :
    Witnessed (ends ++ more) id completed := by
  unfold Witnessed at h ⊢
  split
  · rename_i hc
    rw [if_pos hc] at h
    exact List.mem_append_left _ h
  · rename_i hc
    rw [if_neg hc] at h
    obtain ⟨st, hst, hin⟩ := h
    exact ⟨st, hst, List.mem_append_left _ hin⟩

/-! ## The invariant -/

/-- The call is a child's: it is never tried again, and when it fails the child was never stored or has ended badly. -/
structure Delivery.ChildCall (ends : List (String × Status)) (childID : String) (k : Delivery gen) : Prop where
  retries : k.retries = 0
  instanceID : k.instanceID = childID
  failed : k.stage.failed = true → k.deeds.committed = [] ∨ Witnessed ends childID false

structure Exchange.Truthful (x : Exchange gen) : Prop where
  sound : x.system.Sound
  drivers : ∀ c ∈ x.system.calls, c.driver.callLinks = true
  links : ∀ links, x.system.store.callLinks = some links → ∀ k ∈ links, k.terminal = true →
    Witnessed x.ends k.link.childInstanceID k.outcome.completed
  claimed : ∀ p ∈ x.claimed, Witnessed x.ends p.link.childInstanceID p.outcome.completed
  waits : ∀ {i : Nat} {c : Delivery gen} {l : Loop} {commandID childID : String} {commands : List Command} {callee : Nat},
    x.system.calls[i]? = some c → c.stage = .child l commandID childID commands callee →
    ∃ k : Delivery gen, x.system.calls[callee]? = some k ∧ k.ChildCall x.ends childID

section Step
variable {x x' : Exchange gen} {y z : System gen} {w : World} {c c' : Delivery gen} {m : MemInstanceStore}
  {child : Option (Delivery gen)} {i : Nat}

theorem Delivery.Does.retries (h : c.Does y w m c' child) (hr : c.retries = 0) : c'.retries = 0 := by
  cases h with
  | notFound hstage e he => exact Delivery.returns_retries hr
  | refused l hstage t queue hqueue e hprep => exact Delivery.returns_retries hr
  | loses l hstage t queue hqueue r outcome hprep e hwrite => exact Delivery.returns_retries hr
  | timersFail l hstage t queue hqueue r outcome hprep m version hwrite e hfail => exact Delivery.returns_retries hr
  | performFails l cmd commands hstage e pre hfail => exact Delivery.returns_retries hr
  | performs l cmd commands hstage t hanswers =>
    cases t with
    | none => exact hr
    | some t => exact hr
  | resumes l commandID childID commands callee hstage t =>
    cases t with
    | none => exact hr
    | some t => exact hr
  | _ => exact hr

theorem Delivery.Does.instanceID (h : c.Does y w m c' child) : c'.instanceID = c.instanceID := by
  cases h with
  | notFound hstage e he => exact Delivery.returns_instanceID
  | refused l hstage t queue hqueue e hprep => exact Delivery.returns_instanceID
  | loses l hstage t queue hqueue r outcome hprep e hwrite => exact Delivery.returns_instanceID
  | timersFail l hstage t queue hqueue r outcome hprep m version hwrite e hfail => exact Delivery.returns_instanceID
  | performFails l cmd commands hstage e pre hfail => exact Delivery.returns_instanceID
  | performs l cmd commands hstage t hanswers => exact Delivery.resume_instanceID
  | resumes l commandID childID commands callee hstage t => exact Delivery.resume_instanceID
  | _ => rfl

theorem Delivery.Does.driver (h : c.Does y w m c' child) : c'.driver = c.driver := by
  cases h with
  | notFound hstage e he => exact Delivery.returns_driver
  | refused l hstage t queue hqueue e hprep => exact Delivery.returns_driver
  | loses l hstage t queue hqueue r outcome hprep e hwrite => exact Delivery.returns_driver
  | timersFail l hstage t queue hqueue r outcome hprep m version hwrite e hfail => exact Delivery.returns_driver
  | performFails l cmd commands hstage e pre hfail => exact Delivery.returns_driver
  | performs l cmd commands hstage t hanswers => exact Delivery.resume_driver
  | resumes l commandID childID commands callee hstage t => exact Delivery.resume_driver
  | _ => rfl

/-- Only a call that begins a child waits for one, and for that one. -/
theorem Delivery.Does.waits (h : c.Does y w m c' child) {l : Loop} {commandID : String} {commands : List Command}
    {callee : Nat} (hstage : c'.stage = .child l commandID childID commands callee) :
    callee = y.calls.length ∧ ∃ k, child = some k ∧ k.retries = 0 ∧ k.instanceID = childID ∧ k.stage.failed = false := by
  have hback : ∀ {c0 : Delivery gen} {e : DriverError},
    (c0.returns e).stage ≠ .child l commandID childID commands callee := by
    intro c0 e he
    have hloop := @Delivery.returns_loop gen c0 e
    rw [he] at hloop
    cases hloop
  cases h with
  | notFound hstage' e he => exact (hback hstage).elim
  | refused l hstage' t queue hqueue e hprep => exact (hback hstage).elim
  | loses l hstage' t queue hqueue r outcome hprep e hwrite => exact (hback hstage).elim
  | timersFail l hstage' t queue hqueue r outcome hprep m version hwrite e hfail => exact (hback hstage).elim
  | performFails l cmd commands hstage' e pre hfail => exact (hback hstage).elim
  | performs l cmd commands hstage' t hanswers =>
    rw [Delivery.resume_stage] at hstage
    cases hstage
  | resumes l commandID childID commands callee hstage' t =>
    rw [Delivery.resume_stage] at hstage
    cases hstage
  | spawns l cmd commands hstage' hanswers child hlink =>
    cases hstage
    exact ⟨rfl, _, rfl, rfl, rfl, rfl⟩
  | _ => cases hstage

/-- What the transition of a call leaves on record of its instance. -/
theorem endOf_advance (hi : i < y.calls.length) (hid : c'.instanceID = c.instanceID) {inst : MemInstance}
    (hinst : m.instances c.instanceID = some inst) (hterm : inst.state.status.isTerminal = true) :
    (c.instanceID, inst.state.status) ∈
      System.endOf ({ store := m, calls := y.calls.set i c' ++ child.toList } : System gen) i := by
  have hget : (y.calls.set i c' ++ child.toList)[i]? = some c' := by
    rw [List.getElem?_append_left (by rw [List.length_set]; exact hi), List.getElem?_set_self hi]
  unfold System.endOf
  dsimp only
  rw [hget]
  dsimp only
  rw [hid, hinst]
  dsimp only
  rw [if_pos hterm]
  exact List.mem_singleton.mpr rfl

/-- A commit that ends a child writes the end that its link tells. -/
theorem Exchange.Truthful.links_advance (h : x.Truthful) (hc : x.system.calls[i]? = some c)
    (hdoes : c.Does x.system w m c' child) :
    ∀ links, m.callLinks = some links → ∀ k ∈ links, k.terminal = true →
      Witnessed (x.ends ++ System.endOf ({ store := m, calls := x.system.calls.set i c' ++ child.toList } : System gen) i)
        k.link.childInstanceID k.outcome.completed := by
  rcases hdoes.writes_or with rfl | ⟨l, t, r, outcome, version, -, hloop, hprep, hwrite⟩
  · exact fun links hlinks k hk hterm => (h.links links hlinks k hk hterm).mono
  · have hmem := List.mem_of_getElem? hc
    have hr := prepare_sound (h.sound.held c hmem l hloop) hprep
    obtain ⟨-, hput, -⟩ := Delivery.writes_ok hr.instanceID hwrite
    have hnew : m.instances c.instanceID = some ⟨r.state, version⟩ := by
      rw [hput]
      exact MemInstanceStore.put_same _ _ _
    have hlinks' := Delivery.writes_links hr.instanceID hwrite
    intro links hlinks k hk hterm
    rw [hlinks] at hlinks'
    cases hcreate : l.create with
    | true =>
      rw [hcreate, if_pos rfl] at hlinks'
      cases hfirst : l.firstCallLink with
      | none =>
        rw [hfirst] at hlinks'
        exact (h.links links hlinks'.symm k hk hterm).mono
      | some link =>
        rw [hfirst] at hlinks'
        obtain ⟨before, hbefore, rfl⟩ := Option.map_eq_some_iff.mp hlinks'.symm
        rcases List.mem_append.mp hk with hk | hk
        · exact (h.links before hbefore k (List.mem_of_mem_filter hk) hterm).mono
        · rw [List.mem_singleton.mp hk] at hterm
          cases hterm
    | false =>
      rw [hcreate, if_neg Bool.false_ne_true] at hlinks'
      cases houtcome : outcome with
      | none =>
        rw [houtcome] at hlinks'
        exact (h.links links hlinks'.symm k hk hterm).mono
      | some out =>
        rw [houtcome] at hlinks' hprep
        obtain ⟨before, hbefore, rfl⟩ := Option.map_eq_some_iff.mp hlinks'.symm
        obtain ⟨k0, hk0, rfl⟩ := List.mem_map.mp hk
        by_cases hkid : k0.link.childInstanceID = c.instanceID
        · rw [if_pos (beq_iff_eq.mpr hkid)]
          obtain ⟨-, -, -, -, -, hout⟩ := prepare_ok hprep
          have hends : r.state.status.isTerminal = true ∧ out = callOutcomeOf r.state := by
            split at hout
            · rename_i hboth
              rw [Bool.and_eq_true, Bool.and_eq_true] at hboth
              exact ⟨hboth.1.2, Option.some.inj hout⟩
            · cases hout
          have hlt : i < x.system.calls.length := (List.getElem?_eq_some_iff.mp hc).1
          have hrec := @endOf_advance gen x.system c c' m child i hlt hdoes.instanceID _ hnew hends.1
          dsimp only
          rw [hkid, hends.2]
          unfold Witnessed callOutcomeOf
          by_cases hst : r.state.status = .completed
          · rw [if_pos hst, if_pos rfl, ← hst]
            exact List.mem_append_right _ hrec
          · rw [if_neg hst, if_neg Bool.false_ne_true]
            exact ⟨r.state.status, hst, List.mem_append_right _ hrec⟩
        · rw [if_neg (by rw [beq_iff_eq]; exact hkid)] at hterm ⊢
          exact (h.links before hbefore k0 hk0 hterm).mono

/-- A child's call that goes on stays one, where it does not fail with the child stored. -/
theorem Delivery.ChildCall.advance {j : Nat} (h : c.ChildCall ends childID)
    (hc : y.calls[j]? = some c) (hdoes : c.Does y w m c' child)
    (hholds : System.failsStored ({ store := m, calls := y.calls.set j c' ++ child.toList } : System gen) j = false) :
    c'.ChildCall (ends ++ System.endOf
      ({ store := m, calls := y.calls.set j c' ++ child.toList } : System gen) j) childID := by
  have hlt : j < y.calls.length := (List.getElem?_eq_some_iff.mp hc).1
  have hget : (y.calls.set j c' ++ child.toList)[j]? = some c' := by
    rw [List.getElem?_append_left (by rw [List.length_set]; exact hlt), List.getElem?_set_self hlt]
  refine ⟨hdoes.retries h.retries, hdoes.instanceID.trans h.instanceID, fun hfailed => ?_⟩
  unfold System.failsStored at hholds
  dsimp only at hholds
  rw [hget] at hholds
  dsimp only at hholds
  rw [hfailed, Bool.true_and, Bool.and_eq_false_iff, Bool.not_eq_false', Bool.not_eq_false', List.isEmpty_iff] at hholds
  rcases hholds with hnone | hbad
  · exact Or.inl hnone
  · refine Or.inr ?_
    unfold MemInstanceStore.endedBadly at hbad
    split at hbad
    · rename_i inst hinst
      rw [Bool.and_eq_true, bne_iff_ne] at hbad
      rw [hdoes.instanceID] at hinst
      have hrec := @endOf_advance gen y c c' m child j hlt hdoes.instanceID inst hinst hbad.1
      unfold Witnessed
      rw [if_neg Bool.false_ne_true, ← h.instanceID]
      exact ⟨inst.state.status, hbad.2, List.mem_append_right _ hrec⟩
    · cases hbad

theorem Delivery.ChildCall.mono {more : List (String × Status)} (h : c.ChildCall ends childID) :
    c.ChildCall (ends ++ more) childID :=
  ⟨h.retries, h.instanceID, fun hfailed => (h.failed hfailed).imp_right Witnessed.mono⟩

/-- The calls after a transition, place by place. -/
theorem get_calls_after {calls : List (Delivery gen)} {n : Nat} {d : Delivery gen}
    (h : (calls.set i c' ++ child.toList)[n]? = some d) :
    n = i ∧ d = c' ∨ n ≠ i ∧ calls[n]? = some d ∨ n = calls.length ∧ child = some d := by
  by_cases hlt : n < calls.length
  · rw [List.getElem?_append_left (by rw [List.length_set]; exact hlt)] at h
    by_cases hni : n = i
    · subst hni
      rw [List.getElem?_set_self hlt] at h
      exact Or.inl ⟨rfl, (Option.some.inj h).symm⟩
    · rw [List.getElem?_set_ne (fun he => hni he.symm)] at h
      exact Or.inr (Or.inl ⟨hni, h⟩)
  · rw [List.getElem?_append_right (by rw [List.length_set]; exact Nat.le_of_not_lt hlt), List.length_set] at h
    cases child with
    | none => cases h
    | some k =>
      rw [Option.toList_some] at h
      have hzero : n - calls.length = 0 := by
        have hbound := (List.getElem?_eq_some_iff.mp h).1
        rw [List.length_singleton] at hbound
        omega
      rw [hzero] at h
      exact Or.inr (Or.inr ⟨by omega, h⟩)

theorem Exchange.Truthful.advance (h : x.Truthful) (hc : x.system.calls[i]? = some c) (hdoes : c.Does x.system w m c' child)
    (hz : x.system.advance i w = some { store := m, calls := x.system.calls.set i c' ++ child.toList })
    (hholds : x.system.failsChild i w = false) :
    ({ x with
        system := { store := m, calls := x.system.calls.set i c' ++ child.toList }
        ends := x.ends ++ System.endOf ({ store := m, calls := x.system.calls.set i c' ++ child.toList } : System gen) i } :
      Exchange gen).Truthful := by
  have hmem := List.mem_of_getElem? hc
  have hlt : i < x.system.calls.length := (List.getElem?_eq_some_iff.mp hc).1
  have hchoice : x.system.step (.advance i w) = some { store := m, calls := x.system.calls.set i c' ++ child.toList } := hz
  refine ⟨h.sound.step hchoice, ?_, h.links_advance hc hdoes, fun p hp => (h.claimed p hp).mono, ?_⟩
  · intro d hd
    rcases mem_calls_after hd with rfl | ⟨j, -, hj⟩ | hchild
    · rw [hdoes.driver]
      exact h.drivers c hmem
    · exact h.drivers d (List.mem_of_getElem? hj)
    · cases hdoes with
      | spawns l cmd commands hstage hanswers child hlink =>
        cases hchild
        exact h.drivers c hmem
      | _ => cases hchild
  · intro n d l commandID childID commands callee hd hstage
    dsimp only at hd ⊢
    rcases get_calls_after hd with ⟨rfl, rfl⟩ | ⟨hne, hold⟩ | ⟨rfl, hchild⟩
    · -- the call has just begun the child it waits for
      obtain ⟨rfl, k, rfl, hretries, hid, hrun⟩ := hdoes.waits hstage
      refine ⟨k, ?_, hretries, hid, fun hfailed => ?_⟩
      · rw [List.getElem?_append_right (by rw [List.length_set]), List.length_set, Nat.sub_self]
        rfl
      · rw [hrun] at hfailed
        cases hfailed
    · obtain ⟨k, hk, hcall⟩ := h.waits hold hstage
      have hkl : callee < x.system.calls.length := (List.getElem?_eq_some_iff.mp hk).1
      by_cases hsame : callee = i
      · subst hsame
        obtain rfl := Option.some.inj (hk.symm.trans hc)
        have hparent : x.system.hasParent callee = true := by
          unfold System.hasParent
          rw [List.any_eq_true]
          refine ⟨d, List.mem_of_getElem? hold, ?_⟩
          rw [hstage]
          exact beq_self_eq_true _
        unfold System.failsChild at hholds
        rw [hparent, hz, Bool.true_and] at hholds
        refine ⟨c', ?_, hcall.advance hc hdoes hholds⟩
        rw [List.getElem?_append_left (by rw [List.length_set]; exact hlt), List.getElem?_set_self hlt]
      · refine ⟨k, ?_, hcall.mono⟩
        rw [List.getElem?_append_left (by rw [List.length_set]; exact hkl), List.getElem?_set_ne (fun he => hsame he.symm)]
        exact hk
    · cases hdoes with
      | spawns l cmd commands hstage' hanswers child hlink =>
        cases hchild
        cases hstage
      | _ => cases hchild

/-- A call that begins on its own leaves the rest as it was. -/
theorem Exchange.Truthful.begins (h : x.Truthful) {d : Delivery gen} (hd : d.driver.callLinks = true)
    (hwaits : d.stage.callee? = none) (hsound : ({ x.system with calls := x.system.calls ++ [d] } : System gen).Sound) :
    ({ x with system := { x.system with calls := x.system.calls ++ [d] } } : Exchange gen).Truthful := by
  refine ⟨hsound, ?_, h.links, h.claimed, ?_⟩
  · intro c hc
    rcases List.mem_append.mp hc with hc | hc
    · exact h.drivers c hc
    · rw [List.mem_singleton.mp hc]
      exact hd
  · intro n c l commandID childID commands callee hc hstage
    dsimp only at hc ⊢
    by_cases hn : n < x.system.calls.length
    · rw [List.getElem?_append_left hn] at hc
      obtain ⟨k, hk, hcall⟩ := h.waits hc hstage
      exact ⟨k, (List.getElem?_append_left (List.getElem?_eq_some_iff.mp hk).1).trans hk, hcall⟩
    · have hin : c = d := by
        rw [List.getElem?_append_right (Nat.le_of_not_lt hn)] at hc
        exact List.mem_singleton.mp (List.mem_of_getElem? hc)
      rw [hin] at hstage
      rw [hstage] at hwaits
      cases hwaits

/-- Every errand keeps what the parents may be told true. -/
theorem Exchange.Truthful.step {errand : Errand gen} (h : x.Truthful) (hlinking : x.Linking errand)
    (hholds : x.ChildrenHold errand) (hstep : x.step errand = some x') : x'.Truthful := by
  cases errand with
  | claim limit =>
    cases hstep
    refine ⟨h.sound, h.drivers, h.links, ?_, h.waits⟩
    intro p hp
    rcases List.mem_append.mp hp with hp | hp
    · exact h.claimed p hp
    · have hpending : p ∈ ((x.system.store.callLinks.getD []).filter (fun l => l.terminal && !l.notified)).map
          (fun l => (⟨l.link, l.outcome⟩ : PendingNotify)) := by
        unfold MemCallLinks.claimPending at hp
        dsimp only at hp
        split at hp
        · exact List.mem_of_mem_take hp
        · exact hp
      obtain ⟨k, hk, rfl⟩ := List.mem_map.mp hpending
      obtain ⟨hk, hterm⟩ := List.mem_filter.mp hk
      rw [Bool.and_eq_true] at hterm
      cases hlinks : x.system.store.callLinks with
      | none =>
        rw [hlinks] at hk
        cases hk
      | some links =>
        rw [hlinks] at hk
        exact h.links links hlinks k hk hterm.1
  | notify driver d p now retrying =>
    dsimp only [Exchange.step] at hstep
    split at hstep
    · obtain ⟨z, hz, rfl⟩ := Option.map_eq_some_iff.mp hstep
      have hsound := h.sound.step hz
      cases hz
      exact h.begins hlinking rfl hsound
    · cases hstep
  | system choice =>
    dsimp only [Exchange.step] at hstep
    split at hstep
    · cases hstep
    · obtain ⟨z, hz, rfl⟩ := Option.map_eq_some_iff.mp hstep
      cases choice with
      | apply driver d instanceID trg retrying =>
        have hsound := h.sound.step hz
        cases hz
        dsimp only [System.newEnds]
        rw [List.append_nil]
        exact h.begins hlinking rfl hsound
      | start driver d instanceID at_ vars startNodeID =>
        have hsound := h.sound.step hz
        cases hz
        dsimp only [System.newEnds]
        rw [List.append_nil]
        exact h.begins hlinking rfl hsound
      | markNotified childID =>
        have hsound := h.sound.step hz
        cases hz
        dsimp only [System.newEnds]
        rw [List.append_nil]
        refine ⟨hsound, h.drivers, ?_, h.claimed, h.waits⟩
        intro links hlinks k hk hterm
        obtain ⟨before, hbefore, rfl⟩ := Option.map_eq_some_iff.mp hlinks
        obtain ⟨k0, hk0, rfl⟩ := List.mem_map.mp hk
        have hold := h.links before hbefore k0 hk0
        split at hterm
        · rename_i hid
          rw [if_pos hid]
          exact hold hterm
        · rename_i hid
          rw [if_neg hid]
          exact hold hterm
      | advance i w =>
        obtain ⟨c, m, c', child, hc, hdoes, rfl⟩ := System.advance_does hz
        exact h.advance hc hdoes hz hholds

end Step

theorem Exchange.blank_truthful : (Exchange.blank : Exchange gen).Truthful where
  sound := System.blank_sound _
  drivers := fun _ h => nomatch h
  links := by
    intro links hlinks k hk
    cases hlinks
    cases hk
  claimed := fun _ h => nomatch h
  waits := by
    intro i c l commandID childID commands callee hc
    cases hc

/-! ## Deliveries -/

/-- A step gives a parent a trigger of its child's end, through the queue of a call or as the trigger of a new one. -/
def Exchange.Tells (x x' : Exchange gen) (t : Trigger) : Prop :=
  t.body.ofChild = true ∧ ∃ (i : Nat) (d : Delivery gen), x'.system.calls[i]? = some d ∧
    ((∃ c, x.system.calls[i]? = some c ∧ d.answers = c.answers ++ [t]) ∨ x.system.calls[i]? = none ∧ d.trigger = t)

section Tells
variable {x x' : Exchange gen} {y z : System gen} {w : World} {c c' d : Delivery gen} {m : MemInstanceStore}
  {child : Option (Delivery gen)} {i : Nat} {t : Trigger} {errand : Errand gen}

theorem ne_append_singleton {α : Type} {l : List α} {a : α} (h : l = l ++ [a]) : False := by
  have hlen := congrArg List.length h
  rw [List.length_append, List.length_singleton] at hlen
  omega

theorem Delivery.returns_answers {e : DriverError} : (c.returns e).answers = c.answers := by
  unfold Delivery.returns
  split
  · split <;> rfl
  · rfl

/-- A call gets an answer from a command it performs or from the child it waits for. -/
theorem Delivery.Does.answers (h : c.Does y w m c' child) : c'.answers = c.answers ∨
    (∃ l cmd commands, c.stage = .perform l (cmd :: commands)) ∨
    ∃ l commandID childID commands callee, c.stage = .child l commandID childID commands callee := by
  cases h with
  | notFound hstage e he => exact Or.inl Delivery.returns_answers
  | refused l hstage t queue hqueue e hprep => exact Or.inl Delivery.returns_answers
  | loses l hstage t queue hqueue r outcome hprep e hwrite => exact Or.inl Delivery.returns_answers
  | timersFail l hstage t queue hqueue r outcome hprep m version hwrite e hfail => exact Or.inl Delivery.returns_answers
  | performFails l cmd commands hstage e pre hfail => exact Or.inr (Or.inl ⟨l, cmd, commands, hstage⟩)
  | performs l cmd commands hstage t hanswers => exact Or.inr (Or.inl ⟨l, cmd, commands, hstage⟩)
  | resumes l commandID childID commands callee hstage t =>
    exact Or.inr (Or.inr ⟨l, commandID, childID, commands, callee, hstage⟩)
  | _ => exact Or.inl rfl

theorem Delivery.resume_answers {l : Loop} {commands : List Command} {a : Option Trigger}
    (h : (c.resume l commands a).answers = c.answers ++ [t]) : a = some t := by
  cases a with
  | none => exact (ne_append_singleton h).elim
  | some t' =>
    have hlist := List.append_cancel_left (show c.answers ++ [t'] = c.answers ++ [t] from h)
    rw [(List.cons.inj hlist).1]

/-- The trigger that performing a command gives is a child's only when the command cannot start one. -/
theorem perform_ofChild {driver : ProcessDriver gen} {links : MemCallLinks} {depth : Nat} {def_ : ProcessDefinition}
    {s : InstanceState} {cmd : Command} (h : driver.perform w links depth def_ s cmd = .ok (.next (some t)))
    (ht : t.body.ofChild = true) : ∃ commandID defRef input, cmd = .startSubInstance commandID defRef input ∧
      driver.performStartSubInstance w links depth def_ s commandID defRef input = .next (some t) := by
  unfold ProcessDriver.perform at h
  split at h
  · cases h
  · cases cmd with
    | invokeAction commandID name input fireAndForget =>
      have hnext := Performed.next.inj (Except.ok.inj h)
      unfold ProcessDriver.performInvokeAction at hnext
      split at hnext
      · cases hnext
      · split at hnext <;> (cases hnext; cases ht)
    | startSubInstance commandID defRef input => exact ⟨commandID, defRef, input, rfl, Except.ok.inj h⟩
    | _ => cases h

theorem advance_tells (hc : y.calls[i]? = some c) (hz : y.advance i w = some z) (hd : z.calls[i]? = some d)
    (hans : d.answers = c.answers ++ [t]) :
    (∃ l cmd commands, c.stage = .perform l (cmd :: commands) ∧
      c.driver.perform w (y.store.callLinks.getD []) c.depth c.definition l.st cmd = .ok (.next (some t))) ∨
    ∃ l commandID childID commands callee k r, c.stage = .child l commandID childID commands callee ∧
      y.calls[callee]? = some k ∧ k.stage = .done r ∧ c.driver.afterChild w commandID childID r = some t := by
  have hlt : i < y.calls.length := (List.getElem?_eq_some_iff.mp hc).1
  have hself : ∀ {d' : Delivery gen} {more : List (Delivery gen)}, (y.calls.set i d' ++ more)[i]? = some d → d = d' := by
    intro d' more hget
    rw [List.getElem?_append_left (by rw [List.length_set]; exact hlt), List.getElem?_set_self hlt] at hget
    exact (Option.some.inj hget).symm
  obtain ⟨c0, m, c', child, hc0, hdoes, hz'⟩ := System.advance_does hz
  obtain rfl := Option.some.inj (hc.symm.trans hc0)
  rcases hdoes.answers with hsame | ⟨l, cmd, commands, hstage⟩ | ⟨l, commandID, childID, commands, callee, hstage⟩
  · rw [hz'] at hd
    rw [hself hd, hsame] at hans
    exact (ne_append_singleton hans).elim
  · left
    refine ⟨l, cmd, commands, hstage, ?_⟩
    unfold System.advance at hz
    rw [hc] at hz
    dsimp only at hz
    rw [hstage] at hz
    dsimp only at hz
    cases hz
    have hd' := hself hd
    rw [hd'] at hans
    unfold Delivery.performs at hans
    split at hans
    · exact (ne_append_singleton hans).elim
    · dsimp only at hans
      split at hans
      · rw [Delivery.returns_answers] at hans
        exact (ne_append_singleton hans).elim
      · rename_i a hperform
        rw [← @Delivery.resume_answers gen (c.notesDispatch cmd) t l commands a hans]
        exact hperform
      · exact (ne_append_singleton hans).elim
  · right
    unfold System.advance at hz
    rw [hc] at hz
    dsimp only at hz
    rw [hstage] at hz
    dsimp only at hz
    split at hz
    · cases hz
    · rename_i k hk
      split at hz
      · rename_i r hdone
        cases hz
        have hd' : d = c.resume l commands (c.driver.afterChild w commandID childID r) := by
          refine @hself _ [] ?_
          rw [List.append_nil]
          exact hd
        rw [hd'] at hans
        exact ⟨l, commandID, childID, commands, callee, k, r, hstage, hk, hdone, Delivery.resume_answers hans⟩
      · cases hz

/-- Whatever a parent is told comes of a child's call, of a child that cannot be started, or of a notifier. -/
theorem Exchange.Tells.delivered (h : x.Tells x' t) (hstep : x.step errand = some x') :
    ∃ created childID, x.Delivers errand created childID t.body := by
  obtain ⟨hchild, i, d, hd, hnew⟩ := h
  -- a call that has begun on its own is the last one
  have hlast : ∀ {d' : Delivery gen}, x'.system.calls = x.system.calls ++ [d'] → d'.trigger = t := by
    intro d' hcalls
    rw [hcalls] at hd
    by_cases hlt : i < x.system.calls.length
    · rw [List.getElem?_append_left hlt] at hd
      rcases hnew with ⟨c, hc, hans⟩ | ⟨hnone, -⟩
      · obtain rfl := Option.some.inj (hd.symm.trans hc)
        exact (ne_append_singleton hans).elim
      · rw [hd] at hnone
        cases hnone
    · rcases hnew with ⟨c, hc, -⟩ | ⟨-, htrigger⟩
      · exact absurd (List.getElem?_eq_some_iff.mp hc).1 hlt
      · rw [List.getElem?_append_right (Nat.le_of_not_lt hlt)] at hd
        rw [← List.mem_singleton.mp (List.mem_of_getElem? hd)]
        exact htrigger
  have hsame : x'.system.calls = x.system.calls → False := by
    intro hcalls
    rw [hcalls] at hd
    rcases hnew with ⟨c, hc, hans⟩ | ⟨hnone, -⟩
    · obtain rfl := Option.some.inj (hd.symm.trans hc)
      exact ne_append_singleton hans
    · rw [hd] at hnone
      cases hnone
  cases errand with
  | claim limit =>
    cases hstep
    exact (hsame rfl).elim
  | notify driver d0 p now retrying =>
    dsimp only [Exchange.step] at hstep
    split at hstep
    · rename_i hp
      obtain ⟨z, hz, rfl⟩ := Option.map_eq_some_iff.mp hstep
      cases hz
      have htrigger := hlast rfl
      refine ⟨true, p.link.childInstanceID, ?_⟩
      rw [← htrigger]
      exact .notified hp
    · cases hstep
  | system choice =>
    dsimp only [Exchange.step] at hstep
    split at hstep
    · cases hstep
    · rename_i hforges
      obtain ⟨z, hz, rfl⟩ := Option.map_eq_some_iff.mp hstep
      cases choice with
      | apply driver d0 instanceID trg retrying =>
        cases hz
        have htrigger : trg = t := hlast rfl
        rw [htrigger] at hforges
        exact absurd hchild hforges
      | start driver d0 instanceID at_ vars startNodeID =>
        cases hz
        have htrigger := hlast rfl
        rw [← htrigger] at hchild
        cases hchild
      | markNotified childID =>
        cases hz
        exact (hsame rfl).elim
      | advance j w =>
        have hz' : x.system.advance j w = some z := hz
        obtain ⟨c0, m, c', child, hc0, hdoes, hzeq⟩ := System.advance_does hz'
        have hplace := hd
        dsimp only at hplace
        rw [hzeq] at hplace
        rcases get_calls_after hplace with ⟨rfl, rfl⟩ | ⟨-, hold⟩ | ⟨rfl, hspawned⟩
        · rcases hnew with ⟨c, hc, hans⟩ | ⟨hnone, -⟩
          · rcases advance_tells hc hz' hd hans with ⟨l, cmd, commands, hstage, hperform⟩ |
              ⟨l, commandID, childID, commands, callee, k, r, hstage, hk, hdone, hafter⟩
            · obtain ⟨commandID, defRef, input, rfl, hstart⟩ := perform_ofChild hperform hchild
              exact ⟨_, _, .refused hc hstage hstart⟩
            · exact ⟨_, _, .returned hc hstage hk hdone hafter⟩
          · rw [hc0] at hnone
            cases hnone
        · rcases hnew with ⟨c, hc, hans⟩ | ⟨hnone, -⟩
          · obtain rfl := Option.some.inj (hold.symm.trans hc)
            exact (ne_append_singleton hans).elim
          · rw [hold] at hnone
            cases hnone
        · rcases hnew with ⟨c, hc, -⟩ | ⟨-, htrigger⟩
          · exact absurd (List.getElem?_eq_some_iff.mp hc).1 (Nat.lt_irrefl _)
          · cases hdoes with
            | spawns l cmd commands hstage hanswers child hlink =>
              cases hspawned
              rw [← htrigger] at hchild
              cases hchild
            | _ => cases hspawned

end Tells

section Runs
variable {x x' : Exchange gen} {errands : List (Errand gen)} {errand : Errand gen} {t : Trigger}

/-- What is delivered in a truthful exchange is true. -/
theorem Exchange.Truthful.delivers (hx : x.Truthful) {created : Bool} {body : TriggerBody}
    (hdelivers : x.Delivers errand created childID body) :
    (∀ commandID err, body = .subInstanceFailed commandID err →
      created = false ∨ ∃ st, st ≠ .completed ∧ (childID, st) ∈ x.ends) ∧
    ∀ commandID output, body = .subInstanceCompleted commandID output → (childID, .completed) ∈ x.ends := by
  cases hdelivers with
  | returned hc hstage hk hdone ht =>
    rename_i i w c k l commandID commands callee r t
    obtain ⟨k', hk', hcall⟩ := hx.waits hc hstage
    obtain rfl := Option.some.inj (hk.symm.trans hk')
    have hdriver := hx.drivers c (List.mem_of_getElem? hc)
    cases r with
    | ok st =>
      -- a child that returned is reported by its link
      unfold ProcessDriver.afterChild at ht
      dsimp only at ht
      rw [hdriver, if_pos rfl] at ht
      cases ht
    | error e =>
      cases ht
      refine ⟨fun _ _ _ => ?_, fun _ _ hbody => nomatch hbody⟩
      have hfailed : k.stage.failed = true := by
        rw [hdone]
        rfl
      rcases hcall.failed hfailed with hnone | hbad
      · rw [hnone]
        exact Or.inl rfl
      · exact Or.inr hbad
  | refused hc hstage ht =>
    refine ⟨fun _ _ _ => Or.inl rfl, fun commandID output hbody => ?_⟩
    unfold ProcessDriver.performStartSubInstance at ht
    dsimp only at ht
    split at ht
    · split at ht
      · cases ht
        cases hbody
      · cases ht
    · split at ht
      · cases ht
        cases hbody
      · split at ht
        · cases ht
          cases hbody
        · cases ht
  | notified hp =>
    rename_i driver d p now retrying
    have hw := hx.claimed p hp
    unfold Witnessed at hw
    unfold PendingNotify.trigger
    split
    · rename_i hcompleted
      rw [if_pos hcompleted] at hw
      exact ⟨(fun _ _ hbody => nomatch hbody), fun _ _ _ => hw⟩
    · rename_i hcompleted
      rw [if_neg hcompleted] at hw
      exact ⟨fun _ _ _ => Or.inr hw, fun _ _ hbody => nomatch hbody⟩

/-- In a run of drivers with a call-link store where no call of a child fails once the child is stored, a parent is told that
its child failed only if the child was never stored or has ended other than completed, and that it completed only if it
has. -/
theorem parents_are_told_the_truth (hrun : Exchange.Runs Exchange.Steady Exchange.blank errands x)
    (hstep : x.step errand = some x') (htells : x.Tells x' t) :
    ∃ created childID, x.Delivers errand created childID t.body ∧
      (∀ commandID err, t.body = .subInstanceFailed commandID err →
        created = false ∨ ∃ st, st ≠ .completed ∧ (childID, st) ∈ x.ends) ∧
      ∀ commandID output, t.body = .subInstanceCompleted commandID output → (childID, .completed) ∈ x.ends := by
  have hx : x.Truthful := hrun.invariant Exchange.blank_truthful (fun h hP hnext => h.step hP.1 hP.2 hnext)
  obtain ⟨created, childID, hdelivers⟩ := htells.delivered hstep
  exact ⟨created, childID, hdelivers, hx.delivers hdelivers⟩

end Runs

/-- The child's task is completed by a later call, and a notifier claims its link. -/
def claimsEnd : List (Errand none) :=
  (startsChild asksOnce ++
    [.apply linkingDriver asksOnce "i-sub-c1" ⟨3, .humanCompleted "i-sub-c1-h1" "" "" [] { id := "ann" }⟩ false,
    goesOnWith asksOnce 2, goesOnWith asksOnce 2]).map .system ++ [.claim 0]

/-- The parent is told that the child completed, which it did. -/
theorem parent_told_of_end : ∃ errands x errand x' t childID,
    Exchange.Runs Exchange.Steady (Exchange.blank : Exchange none) errands x ∧
    x.step errand = some x' ∧ x.Tells x' t ∧ x.Delivers errand true childID t.body ∧ (childID, .completed) ∈ x.ends := by
  have hplay : Library.plays Exchange.step Exchange.Steady Exchange.blank claimsEnd
      (fun x => x.claimed.any (fun p => p.outcome.completed)) = true := by decide
  obtain ⟨x, hrun, hQ⟩ := Library.runs_of_plays hplay
  obtain ⟨p, hp, hcompleted⟩ := List.any_eq_true.mp hQ
  have hstep : x.step (.notify linkingDriver callsOther p 10 false) = some { x with
      system := { x.system with calls := x.system.calls ++
        [.apply linkingDriver callsOther p.link.parentInstanceID (p.trigger 10) false] } } := by
    dsimp only [Exchange.step]
    rw [if_pos hp]
    rfl
  have hbody : (p.trigger 10).body = .subInstanceCompleted p.link.parentCommandID p.outcome.output := by
    unfold PendingNotify.trigger
    rw [if_pos hcompleted]
  have htells : x.Tells { x with
      system := { x.system with calls := x.system.calls ++
        [.apply linkingDriver callsOther p.link.parentInstanceID (p.trigger 10) false] } } (p.trigger 10) := by
    refine ⟨by rw [hbody]; rfl, x.system.calls.length, _, List.getElem?_concat_length, Or.inr ⟨?_, rfl⟩⟩
    exact List.getElem?_eq_none (Nat.le_refl _)
  obtain ⟨created, childID, hdelivers, -, hdone⟩ := parents_are_told_the_truth hrun hstep htells
  refine ⟨_, x, _, _, p.trigger 10, childID, hrun, hstep, htells, ?_, hdone _ _ hbody⟩
  cases hdelivers with
  | notified hp' => exact .notified hp

/-- The child is stored and waits at its task, whose record cannot be written. -/
def failsInChild : List (Errand none) :=
  ([Choice.start linkingDriver callsOther "i" 1 [] ""] ++ [0, 0, 1].map (goesOnWith asksOnce) ++
    [Choice.advance 1 { now := 9, fuel := 50, failure := some { text := "task store down" } }]).map .system

/-- The parent waits for a call that failed with its child stored and running, and no child has ended. -/
def Exchange.waitsForRunning (x : Exchange none) : Bool :=
  match x.system.calls[0]? with
  | some c =>
    match c.stage with
    | .child _ _ childID _ callee =>
      (match x.system.calls[callee]? with
        | some k => k.stage.failed && !k.deeds.committed.isEmpty
        | none => false) &&
      (match x.system.store.instances childID with
        | some inst => inst.state.status == .running
        | none => false) && x.ends.isEmpty
    | _ => false
  | none => false

/-- The parent is told that the child failed while the child runs. -/
theorem running_child_reported_failed : ∃ errands x errand x' t childID inst,
    Exchange.Runs Exchange.Linking (Exchange.blank : Exchange none) errands x ∧ x.step errand = some x' ∧ x.Tells x' t ∧
      x.Delivers errand true childID t.body ∧ (∃ commandID err, t.body = .subInstanceFailed commandID err) ∧
      x.system.store.instances childID = some inst ∧ inst.state.status = .running ∧ ∀ st, (childID, st) ∉ x.ends := by
  have hplay : Library.plays Exchange.step Exchange.Linking Exchange.blank failsInChild Exchange.waitsForRunning = true := by
    decide
  obtain ⟨x, hrun, hQ⟩ := Library.runs_of_plays hplay
  unfold Exchange.waitsForRunning at hQ
  split at hQ
  · rename_i c hc
    split at hQ
    · rename_i l commandID childID commands callee hstage
      rw [Bool.and_eq_true, Bool.and_eq_true, List.isEmpty_iff] at hQ
      obtain ⟨⟨hcall, hinst⟩, hends⟩ := hQ
      split at hcall
      · rename_i k hk
        rw [Bool.and_eq_true] at hcall
        obtain ⟨hfailed, hcommitted⟩ := hcall
        split at hinst
        · rename_i inst hstored
          unfold Stage.failed at hfailed
          split at hfailed
          · rename_i e hdone
            have hlt : 0 < x.system.calls.length := (List.getElem?_eq_some_iff.mp hc).1
            have hadvance : x.system.advance 0 { now := 9, fuel := 50 } = some { x.system with
                calls := x.system.calls.set 0 (c.resume l commands (some ⟨9, .subInstanceFailed commandID e.text⟩)) } := by
              unfold System.advance
              rw [hc]
              dsimp only
              rw [hstage]
              dsimp only
              rw [hk]
              dsimp only
              rw [hdone]
              rfl
            have hstep : ∃ ends, x.step (.system (.advance 0 { now := 9, fuel := 50 })) = some { x with
                system := { x.system with
                  calls := x.system.calls.set 0 (c.resume l commands (some ⟨9, .subInstanceFailed commandID e.text⟩)) }
                ends := ends } := by
              dsimp only [Exchange.step]
              rw [if_neg (by exact Bool.false_ne_true)]
              change ∃ ends, (x.system.advance 0 _).map _ = _
              rw [hadvance]
              exact ⟨_, rfl⟩
            obtain ⟨ends, hstep⟩ := hstep
            have hdelivers := Exchange.Delivers.returned (w := { now := 9, fuel := 50 })
              (t := ⟨9, .subInstanceFailed commandID e.text⟩) hc hstage hk hdone rfl
            rw [hcommitted] at hdelivers
            refine ⟨_, x, _, _, _, childID, inst, hrun, hstep, ⟨rfl, 0, _, List.getElem?_set_self hlt, Or.inl ⟨c, hc, rfl⟩⟩,
              hdelivers, ⟨_, _, rfl⟩, hstored, beq_iff_eq.mp hinst, fun st hst => ?_⟩
            rw [hends] at hst
            cases hst
          · cases hfailed
        · cases hinst
      · cases hcall
    · cases hQ
  · cases hQ

end Wrkflw
