import Wrkflw.Property.Commit
import Wrkflw.Property.Terminal

/-!
# Call links follow their children

The link of a child instance is recorded with the child's first commit and flipped when a later commit ends the child.
`MemLink.Follows` says that it tells the truth about the stored child. It does in every run where no child ends in the
step that creates it, and no ended child is asked to roll back: the first commit does not look at the outcome, and
nothing flips a link back. `SqlRows.Stores.tells` carries the links over to the rows of the SQL store.
-/

namespace Wrkflw

variable {gen : Option IDGenerator}

/-- The stored child has ended exactly when the link says so, with the outcome it tells. -/
def MemLink.Follows (m : MemInstanceStore) (k : MemLink) : Prop :=
  ∃ inst, m.instances k.link.childInstanceID = some inst ∧ k.terminal = inst.state.status.isTerminal ∧
    (k.terminal = true → k.outcome = callOutcomeOf inst.state)

/-- The child is created and ends in one step. -/
def ProcessDriver.endsAtOnce (driver : ProcessDriver gen) (fuel : Nat) (d : ProcessDefinition)
    (s : InstanceState) (t : Trigger) :
    Bool :=
  match step fuel d s t (driver.stepOptions d s t) with
  | .ok r => r.state.status.isTerminal
  | .error _ => false

def Loop.head? (c : Delivery gen) : Option (Loop × Trigger) :=
  match c.stage with
  | .iterate l => l.queue.head?.map (fun t => (l, t))
  | _ => none

/-- Every driver has the call-link store; a step that creates a child does not end it, and a step of an ended instance is
no rollback. -/
def System.Tracked (y : System gen) : Choice gen → Prop
  | .apply driver .. | .start driver .. => driver.callLinks = true
  | .advance i w =>
    ∀ c ∈ y.calls[i]?, ∀ p ∈ Loop.head? c,
      (p.1.create = true → p.1.firstCallLink ≠ none → c.driver.endsAtOnce w.fuel c.definition p.1.st p.2 = false) ∧
        (p.1.st.status.isTerminal = true → p.2.body.terminalPolicy ≠ .allowOnTerminal)
  | .markNotified _ => True

instance (y : System gen) (choice : Choice gen) : Decidable (y.Tracked choice) := by
  unfold System.Tracked
  cases choice <;> infer_instance

/-- The loop of a call began with nothing, or holds a state that was stored under its token. -/
def Loop.Held (m : MemInstanceStore) (id : String) (l : Loop) : Prop :=
  if l.create = true then l.st = { instanceID := id } ∧ ∀ link ∈ l.firstCallLink, link.childInstanceID = id
  else ∃ inst, m.instances id = some inst ∧ l.token ≤ inst.version ∧ (l.token = inst.version → inst.state = l.st)

structure Delivery.Linked (m : MemInstanceStore) (c : Delivery gen) : Prop where
  driver : c.driver.callLinks = true
  held : ∀ l, c.stage.loop? = some l → l.Held m c.instanceID

section Linked
variable {y z : System gen} {w : World} {c c' : Delivery gen} {m m' : MemInstanceStore} {child : Option (Delivery gen)}
  {e : DriverError} {l : Loop} {t : Trigger} {r : StepResult} {outcome : Option CallOutcome} {version : Nat} {id : String}

theorem Loop.Held.append {a : Option Trigger} (h : l.Held m id) : (l.append a).Held m id := h

theorem Loop.Held.of_create (hcreate : l.create = true) (h : l.Held m id) :
    l.st = { instanceID := id } ∧ ∀ link ∈ l.firstCallLink, link.childInstanceID = id := by
  unfold Loop.Held at h
  rw [if_pos hcreate] at h
  exact h

theorem Loop.Held.of_commit (hcreate : l.create = false) (h : l.Held m id) :
    ∃ inst, m.instances id = some inst ∧ l.token ≤ inst.version ∧ (l.token = inst.version → inst.state = l.st) := by
  unfold Loop.Held at h
  rw [hcreate, if_neg Bool.false_ne_true] at h
  exact h

/-- The next version of an instance. -/
theorem Delivery.writes_version (h : Delivery.writes m l t r outcome = .ok (m', version)) :
    l.create = true ∧ version = 1 ∨ l.create = false ∧ version = l.token + 1 := by
  unfold Delivery.writes at h
  dsimp only at h
  by_cases hcreate : l.create = true
  · rw [if_pos hcreate] at h
    exact Or.inl ⟨hcreate, (MemInstanceStore.create_ok h).2.1⟩
  · rw [if_neg hcreate] at h
    obtain ⟨-, -, -, hv, -⟩ := MemInstanceStore.commit_ok h
    exact Or.inr ⟨Bool.not_eq_true _ ▸ hcreate, hv⟩

/-- A loop that holds a stored state holds an old one after another's commit. -/
theorem Loop.Held.beside {l0 : Loop} {id0 : String} (hid : r.state.instanceID = id)
    (h : Delivery.writes m l t r outcome = .ok (m', version)) (h0 : l0.Held m id0) : l0.Held m' id0 := by
  unfold Loop.Held at h0 ⊢
  split
  · rename_i hcreate
    rw [if_pos hcreate] at h0
    exact h0
  · rename_i hcreate
    rw [if_neg hcreate] at h0
    obtain ⟨inst, hinst, hle, hsame⟩ := h0
    obtain ⟨hat, hput, -⟩ := Delivery.writes_ok hid h
    by_cases hids : id0 = id
    · subst hids
      rcases hat with ⟨-, hnone⟩ | ⟨hc, st, hst⟩
      · rw [hinst] at hnone
        cases hnone
      · have hv : version = l.token + 1 := by
          rcases Delivery.writes_version h with ⟨hc', -⟩ | ⟨-, hv⟩
          · rw [hc] at hc'
            cases hc'
          · exact hv
        have htok : inst.version = l.token := by
          rw [hst] at hinst
          cases hinst
          rfl
        refine ⟨⟨r.state, version⟩, by rw [hput]; exact MemInstanceStore.put_same _ _ _, ?_, ?_⟩
        · change l0.token ≤ version
          omega
        · intro heq
          change l0.token = version at heq
          omega
    · refine ⟨inst, ?_, hle, hsame⟩
      rw [hput, MemInstanceStore.put_other _ _ hids]
      exact hinst

/-- The links after a write. -/
theorem Delivery.writes_links (hid : r.state.instanceID = id) : Delivery.writes m l t r outcome = .ok (m', version) →
    m'.callLinks = if l.create = true then
        (match l.firstCallLink with
          | some link => m.callLinks.map (fun links => links.record link)
          | none => m.callLinks)
      else
        (match outcome with
          | some out => m.callLinks.map (fun links => links.markTerminal id out)
          | none => m.callLinks) := by
  intro h
  subst hid
  unfold Delivery.writes at h
  dsimp only at h
  by_cases hcreate : l.create = true
  · rw [if_pos hcreate, if_pos hcreate] at h
    rw [if_pos hcreate]
    exact (MemInstanceStore.create_ok h).2.2.2.2
  · rw [if_neg hcreate] at h
    rw [if_neg hcreate]
    obtain ⟨-, -, -, -, -, -, hlinks⟩ := MemInstanceStore.commit_ok h
    exact hlinks

/-- A link of another child is about a row that was not written. -/
theorem MemLink.Follows.beside {k : MemLink}
    (hput : m'.instances = MemInstanceStore.put m.instances id (some ⟨r.state, version⟩))
    (hne : k.link.childInstanceID ≠ id) (h : k.Follows m) : k.Follows m' := by
  obtain ⟨inst, hinst, hrest⟩ := h
  refine ⟨inst, ?_, hrest⟩
  rw [hput, MemInstanceStore.put_other _ _ hne]
  exact hinst

/-- A child's first commit records its link. -/
theorem links_created (hcreate : l.create = true) (hheld : l.Held m id) (hid : r.state.instanceID = id)
    (hlive : l.firstCallLink ≠ none → r.state.status.isTerminal = false)
    (hwrite : Delivery.writes m l t r outcome = .ok (m', version))
    (hall : ∀ links, m.callLinks = some links → ∀ k ∈ links, k.Follows m) :
    ∀ links, m'.callLinks = some links → ∀ k ∈ links, k.Follows m' := by
  obtain ⟨hat, hput, -⟩ := Delivery.writes_ok hid hwrite
  have hnone : m.instances id = none := by
    rcases hat with ⟨-, hnone⟩ | ⟨hcommit, -⟩
    · exact hnone
    · rw [hcreate] at hcommit
      cases hcommit
  -- a link that was there is about a child that was there
  have hold : ∀ links, m.callLinks = some links → ∀ k ∈ links, k.Follows m' := by
    intro links hlinks k hk
    have hfollows := hall links hlinks k hk
    refine hfollows.beside hput ?_
    intro hsame
    obtain ⟨inst, hinst, -⟩ := hfollows
    rw [hsame, hnone] at hinst
    cases hinst
  have hlinks' := Delivery.writes_links hid hwrite
  rw [if_pos hcreate] at hlinks'
  intro links hlinks
  cases hfirst : l.firstCallLink with
  | none =>
    rw [hfirst] at hlinks'
    exact hold links (hlinks'.symm.trans hlinks)
  | some link =>
    rw [hfirst] at hlinks'
    rw [hlinks'] at hlinks
    obtain ⟨before, hbefore, rfl⟩ := Option.map_eq_some_iff.mp hlinks
    intro k hk
    rcases List.mem_append.mp hk with hk | hk
    · exact hold before hbefore k (List.mem_filter.mp hk).1
    · rw [List.mem_singleton.mp hk]
      refine ⟨⟨r.state, version⟩, ?_, ?_, (fun hterm => nomatch hterm)⟩
      · rw [hput, (hheld.of_create hcreate).2 link hfirst]
        exact MemInstanceStore.put_same _ _ _
      · refine (hlive ?_).symm
        rw [hfirst]
        exact Option.some_ne_none link

/-- A later commit flips the link of the child that it ends. -/
theorem links_committed {driver : ProcessDriver gen} {fuel : Nat} {d : ProcessDefinition} (hdriver : driver.callLinks = true)
    (hcreate : l.create = false) (hheld : l.Held m id) (hid : r.state.instanceID = id)
    (hprep : driver.prepare fuel d l.st t = some (.ok (r, outcome)))
    (hended : l.st.status.isTerminal = true → t.body.terminalPolicy ≠ .allowOnTerminal)
    (hwrite : Delivery.writes m l t r outcome = .ok (m', version))
    (hall : ∀ links, m.callLinks = some links → ∀ k ∈ links, k.Follows m) :
    ∀ links, m'.callLinks = some links → ∀ k ∈ links, k.Follows m' := by
  obtain ⟨hat, hput, -⟩ := Delivery.writes_ok hid hwrite
  obtain ⟨r0, hstep, -, -, hsame, hout⟩ := prepare_ok hprep
  rw [hdriver, Bool.true_and] at hout
  -- the commit found the state the loop held
  have hst : ∃ v, m.instances id = some ⟨l.st, v⟩ := by
    obtain ⟨inst, hinst, -, hkeep⟩ := hheld.of_commit hcreate
    rcases hat with ⟨hc, -⟩ | ⟨-, st, hst⟩
    · rw [hcreate] at hc
      cases hc
    · rw [hst] at hinst
      cases hinst
      have heq : st = l.st := hkeep rfl
      exact ⟨l.token, heq ▸ hst⟩
  have hnew : m'.instances id = some ⟨r.state, version⟩ := by
    rw [hput]
    exact MemInstanceStore.put_same _ _ _
  obtain ⟨v, hv⟩ := hst
  have hown : ∀ {k : MemLink}, k.Follows m → k.link.childInstanceID = id → k.terminal = l.st.status.isTerminal ∧
      (k.terminal = true → k.outcome = callOutcomeOf l.st) := by
    intro k hk hkid
    obtain ⟨inst, hinst, hrest⟩ := hk
    rw [hkid, hv] at hinst
    cases hinst
    exact hrest
  have hlinks' := Delivery.writes_links hid hwrite
  rw [hcreate, if_neg Bool.false_ne_true] at hlinks'
  intro links hlinks
  cases houtcome : outcome with
  | none =>
    rw [houtcome] at hlinks' hout
    intro k hk
    have hfollows := hall links (hlinks'.symm.trans hlinks) k hk
    by_cases hkid : k.link.childInstanceID = id
    · obtain ⟨hterm, htells⟩ := hown hfollows hkid
      refine ⟨⟨r.state, version⟩, by rw [hkid]; exact hnew, ?_⟩
      by_cases hwas : l.st.status.isTerminal = true
      · -- an ended child stays as it is
        obtain ⟨hstate, hcmds⟩ := ended_step hwas (hended hwas) hstep
        rw [show (⟨r.state, version⟩ : MemInstance).state = l.st from (hsame hcmds).trans hstate]
        exact ⟨hterm, htells⟩
      · rw [Bool.not_eq_true] at hwas
        rw [hwas, Bool.not_false, Bool.and_true] at hout
        have hlive : r.state.status.isTerminal = false := by
          cases hr : r.state.status.isTerminal with
          | false => rfl
          | true =>
            rw [hr, if_pos rfl] at hout
            cases hout
        refine ⟨hterm.trans (hwas.trans hlive.symm), ?_⟩
        intro htrue
        rw [hterm, hwas] at htrue
        cases htrue
    · exact hfollows.beside hput hkid
  | some out =>
    rw [houtcome] at hlinks' hout
    have hends : r.state.status.isTerminal = true ∧ out = callOutcomeOf r.state := by
      split at hout
      · rename_i hboth
        rw [Bool.and_eq_true] at hboth
        exact ⟨hboth.1, Option.some.inj hout⟩
      · cases hout
    rw [hlinks'] at hlinks
    obtain ⟨before, hbefore, rfl⟩ := Option.map_eq_some_iff.mp hlinks
    intro k hk
    obtain ⟨k0, hk0, rfl⟩ := List.mem_map.mp hk
    by_cases hkid : k0.link.childInstanceID = id
    · rw [if_pos (beq_iff_eq.mpr hkid)]
      exact ⟨⟨r.state, version⟩, by rw [hkid]; exact hnew, hends.1.symm, fun _ => hends.2⟩
    · rw [if_neg (by rw [beq_iff_eq]; exact hkid)]
      exact (hall before hbefore k0 hk0).beside hput hkid

/-- A step that creates a child leaves it running. -/
theorem prepare_live {driver : ProcessDriver gen} {fuel : Nat} {d : ProcessDefinition} {s : InstanceState}
    (hprep : driver.prepare fuel d s t = some (.ok (r, outcome))) (hlive : driver.endsAtOnce fuel d s t = false) :
    r.state.status.isTerminal = false := by
  obtain ⟨r0, hstep, ⟨tasks, hstate⟩, -⟩ := prepare_ok hprep
  unfold ProcessDriver.endsAtOnce at hlive
  rw [hstep] at hlive
  rw [hstate]
  exact hlive

/-- The transition of a call leaves its loop with a state that was stored. -/
theorem Delivery.Does.linked (hsound : ∀ l, c.stage.loop? = some l → Steps.Sound gen c.instanceID l.st)
    (hlinked : c.Linked y.store) (h : c.Does y w m c' child) : c'.Linked m := by
  have hback : ∀ {e m}, (c.returns e).Linked m := by
    intro e m
    refine ⟨by rw [Delivery.returns_driver]; exact hlinked.driver, ?_⟩
    intro l hl
    rw [Delivery.returns_loop] at hl
    cases hl
  have hkeeps : ∀ {l0}, c.stage.loop? = some l0 → ∀ {commands a}, (c.resume l0 commands a).Linked y.store := by
    intro l0 hl0 commands a
    refine ⟨by rw [Delivery.resume_driver]; exact hlinked.driver, ?_⟩
    intro l hl
    rw [Delivery.resume_stage] at hl
    cases hl
    rw [Delivery.resume_instanceID]
    exact (hlinked.held l0 hl0).append
  cases h with
  | notFound hstage e he => exact hback
  | loads hstage st token hinst =>
    refine ⟨hlinked.driver, ?_⟩
    intro l hl
    cases hl
    exact ⟨_, hinst, Nat.le_refl _, fun _ => rfl⟩
  | finishes l hstage hqueue => exact ⟨hlinked.driver, fun _ hl => nomatch hl⟩
  | refused l hstage t queue hqueue e hprep => exact hback
  | loses l hstage t queue hqueue r outcome hprep e hwrite => exact hback
  | timersFail l hstage t queue hqueue r outcome hprep m version hwrite e hfail =>
    refine ⟨by rw [Delivery.returns_driver]; exact hlinked.driver, ?_⟩
    intro l hl
    rw [Delivery.returns_loop] at hl
    cases hl
  | commits l hstage t queue hqueue r outcome hprep m version hwrite =>
    have hr := prepare_sound (hsound l (by rw [hstage]; rfl)) hprep
    obtain ⟨-, hput, -⟩ := Delivery.writes_ok hr.instanceID hwrite
    refine ⟨hlinked.driver, ?_⟩
    intro l' hl'
    cases hl'
    refine ⟨⟨r.state, version⟩, ?_, Nat.le_refl _, fun _ => rfl⟩
    rw [hput]
    exact MemInstanceStore.put_same _ _ _
  | performed l hstage =>
    refine ⟨hlinked.driver, ?_⟩
    intro l' hl'
    cases hl'
    exact hlinked.held l (by rw [hstage]; rfl)
  | skips l cmd commands hstage htimer =>
    refine ⟨hlinked.driver, ?_⟩
    intro l' hl'
    cases hl'
    exact hlinked.held l (by rw [hstage]; rfl)
  | performFails l cmd commands hstage e pre hwfail =>
    refine ⟨by rw [Delivery.returns_driver]; exact hlinked.driver, ?_⟩
    intro l hl
    rw [Delivery.returns_loop] at hl
    cases hl
  | performs l cmd commands hstage a hanswers =>
    have hl : (c.notesDispatch cmd).stage.loop? = some l := by
      change c.stage.loop? = _
      rw [hstage]
      rfl
    refine ⟨by rw [Delivery.resume_driver]; exact hlinked.driver, ?_⟩
    intro l' hl'
    rw [Delivery.resume_stage] at hl'
    cases hl'
    rw [Delivery.resume_instanceID]
    exact (hlinked.held l hl).append
  | spawns l cmd commands hstage hanswers child hlink =>
    refine ⟨hlinked.driver, ?_⟩
    intro l' hl'
    cases hl'
    exact hlinked.held l (by rw [hstage]; rfl)
  | resumes l commandID childID commands callee hstage a => exact hkeeps (by rw [hstage]; rfl)

/-- Every state is sound, every call has a stored state, and every link follows its child. -/
structure System.Follows (y : System gen) : Prop where
  sound : y.Sound
  linked : ∀ c ∈ y.calls, c.Linked y.store
  links : ∀ links, y.store.callLinks = some links → ∀ k ∈ links, k.Follows y.store

/-- What a transition writes, if it writes. -/
theorem Delivery.Does.writes_or (h : c.Does y w m c' child) : m = y.store ∨
    ∃ l t r outcome version, Loop.head? c = some (l, t) ∧ c.stage.loop? = some l ∧
      c.driver.prepare w.fuel c.definition l.st t = some (.ok (r, outcome)) ∧
      Delivery.writes y.store l t r outcome = .ok (m, version) := by
  have hhead : ∀ {l t queue}, c.stage = .iterate l → l.queue = t :: queue → Loop.head? c = some (l, t) ∧
    c.stage.loop? = some l := by
    intro l t queue hstage hqueue
    unfold Loop.head?
    rw [hstage]
    dsimp only
    rw [hqueue]
    exact ⟨rfl, rfl⟩
  cases h with
  | timersFail l hstage t queue hqueue r outcome hprep m version hwrite e hfail =>
    exact Or.inr ⟨l, t, r, outcome, version, (hhead hstage hqueue).1, (hhead hstage hqueue).2, hprep, hwrite⟩
  | commits l hstage t queue hqueue r outcome hprep m version hwrite =>
    exact Or.inr ⟨l, t, r, outcome, version, (hhead hstage hqueue).1, (hhead hstage hqueue).2, hprep, hwrite⟩
  | _ => exact Or.inl rfl

/-- A transition of a call keeps the links true. -/
theorem System.Follows.advance {i : Nat} (h : y.Follows) (htracked : y.Tracked (.advance i w)) (hc : y.calls[i]? = some c)
    (hdoes : c.Does y w m c' child) : ∀ links, m.callLinks = some links → ∀ k ∈ links, k.Follows m := by
  rcases hdoes.writes_or with rfl | ⟨l, t, r, outcome, version, hhead, hloop, hprep, hwrite⟩
  · exact h.links
  · have hmem := List.mem_of_getElem? hc
    have hr := prepare_sound (h.sound.held c hmem l hloop) hprep
    obtain ⟨hborn, hended⟩ := htracked c hc (l, t) hhead
    have hheld := (h.linked c hmem).held l hloop
    cases hcreate : l.create with
    | true =>
      exact links_created hcreate hheld hr.instanceID (fun hfirst => prepare_live hprep (hborn hcreate hfirst)) hwrite h.links
    | false => exact links_committed (h.linked c hmem).driver hcreate hheld hr.instanceID hprep hended hwrite h.links

theorem Delivery.Fresh.held (h : c.Fresh) : ∀ l, c.stage.loop? = some l → l.Held m c.instanceID := by
  intro l hl
  cases h with
  | apply driver d instanceID trg retrying => cases hl
  | create driver d instanceID trg depth link hlink =>
    cases hl
    exact ⟨rfl, hlink⟩

/-- A child's call has its parent's driver. -/
theorem System.drivers_step {choice : Choice gen} (h : ∀ c ∈ y.calls, c.Linked y.store) (hsound : y.Sound)
    (htracked : y.Tracked choice) (hstep : y.step choice = some z) : ∀ c ∈ z.calls, c.driver.callLinks = true := by
  intro c hc
  cases choice with
  | apply driver d instanceID trg retrying =>
    cases hstep
    rcases List.mem_append.mp hc with hc | hc
    · exact (h c hc).driver
    · rw [List.mem_singleton.mp hc]
      exact htracked
  | start driver d instanceID at_ vars startNodeID =>
    cases hstep
    rcases List.mem_append.mp hc with hc | hc
    · exact (h c hc).driver
    · rw [List.mem_singleton.mp hc]
      exact htracked
  | markNotified childID =>
    cases hstep
    exact (h c hc).driver
  | advance i w =>
    obtain ⟨c0, m, c', child, hget, hdoes, rfl⟩ := System.advance_does hstep
    have hmem := List.mem_of_getElem? hget
    have hlinked := h c0 hmem
    rcases mem_calls_after hc with rfl | ⟨j, -, hj⟩ | hchild
    · exact (hdoes.linked (hsound.held c0 hmem) hlinked).driver
    · exact (h c (List.mem_of_getElem? hj)).driver
    · cases hdoes with
      | spawns l cmd commands hstage hanswers child hlink =>
        cases hchild
        exact hlinked.driver
      | _ => cases hchild

theorem System.Follows.step {choice : Choice gen} (h : y.Follows) (htracked : y.Tracked choice)
    (hstep : y.step choice = some z) :
    z.Follows := by
  have hheld : ∀ c ∈ z.calls, ∀ l, c.stage.loop? = some l → l.Held z.store c.instanceID := by
    refine System.calls_induction (G := fun m c => ∀ l, c.stage.loop? = some l → l.Held m c.instanceID)
      (fun c hc => (h.linked c hc).held) hstep Delivery.Fresh.held (fun _ h => h) ?_
    intro i w c m c' child _ hc hdoes
    have hmem := List.mem_of_getElem? hc
    refine ⟨(hdoes.linked (h.sound.held c hmem) (h.linked c hmem)).held, ?_⟩
    intro j c0 _ hj l0 hl0
    have h0 := (h.linked c0 (List.mem_of_getElem? hj)).held l0 hl0
    rcases hdoes.writes_or with rfl | ⟨l, t, r, outcome, version, -, hloop, hprep, hwrite⟩
    · exact h0
    · have hr := prepare_sound (h.sound.held c hmem l hloop) hprep
      exact h0.beside hr.instanceID hwrite
  have hdrivers := System.drivers_step h.linked h.sound htracked hstep
  refine ⟨h.sound.step hstep, fun c hc => ⟨hdrivers c hc, hheld c hc⟩, ?_⟩
  cases choice with
  | apply driver d instanceID trg retrying =>
    cases hstep
    exact h.links
  | start driver d instanceID at_ vars startNodeID =>
    cases hstep
    exact h.links
  | markNotified childID =>
    cases hstep
    intro links hlinks k hk
    obtain ⟨before, hbefore, rfl⟩ := Option.map_eq_some_iff.mp hlinks
    obtain ⟨k0, hk0, rfl⟩ := List.mem_map.mp hk
    have hfollows := h.links before hbefore k0 hk0
    split
    · exact hfollows
    · exact hfollows
  | advance i w =>
    obtain ⟨c, m, c', child, hc, hdoes, rfl⟩ := System.advance_does hstep
    exact h.advance htracked hc hdoes

end Linked

/-- A finished child that its parent was not told of is offered. -/
theorem links_offer {m : MemInstanceStore} {links : MemCallLinks} (hall : ∀ k ∈ links, k.Follows m)
    {k : MemLink} (hk : k ∈ links) {inst : MemInstance} (hinst : m.instances k.link.childInstanceID = some inst)
    (hended : inst.state.status.isTerminal = true)
    (hnew : k.notified = false) : ⟨k.link, callOutcomeOf inst.state⟩ ∈ links.claimPending 0 := by
  obtain ⟨inst', hinst', hterm, htells⟩ := hall k hk
  obtain rfl : inst = inst' := Option.some.inj (hinst.symm.trans hinst')
  rw [hended] at hterm
  unfold MemCallLinks.claimPending
  dsimp only
  rw [if_neg (by decide)]
  refine List.mem_map.mpr ⟨k, List.mem_filter.mpr ⟨hk, ?_⟩, ?_⟩
  · rw [hterm, hnew]
    rfl
  · rw [htells hterm]

/-- A child that is listed as running is. -/
theorem links_running {m : MemInstanceStore} {links : MemCallLinks} (hall : ∀ k ∈ links, k.Follows m) {parentID : String}
    {link : CallLink} (h : link ∈ links.listRunningChildren parentID) :
    ∃ inst, m.instances link.childInstanceID = some inst ∧ inst.state.status.isTerminal = false := by
  unfold MemCallLinks.listRunningChildren at h
  rw [List.mem_insertionSort] at h
  obtain ⟨k, hk, rfl⟩ := List.mem_map.mp h
  obtain ⟨hmem, hrunning⟩ := List.mem_filter.mp hk
  obtain ⟨inst, hinst, hterm, -⟩ := hall k hmem
  rw [Bool.and_eq_true, Bool.not_eq_true'] at hrunning
  exact ⟨inst, hinst, hterm.symm.trans hrunning.1⟩

variable {choices : List (Choice gen)} {y : System gen} {links : MemCallLinks}

theorem System.runs_follow (hrun : System.Runs System.Tracked (System.blank (some [])) choices y) : y.Follows := by
  refine hrun.induction ⟨System.blank_sound _, (fun _ h => nomatch h), ?_⟩ (fun h htracked hstep => h.step htracked hstep)
  intro links hlinks k hk
  cases hlinks
  cases hk

/-- In a run of drivers with a call-link store where no child ends in the step that creates it and no ended instance is
rolled back, every link is terminal exactly when the stored child is, with the outcome of its status; so `ClaimPending` offers
every finished child its parent was not told of, and `ListRunningChildren` lists no finished one. -/
theorem call_links_follow (hrun : System.Runs System.Tracked (System.blank (some [])) choices y)
    (hlinks : y.store.callLinks = some links) :
    (∀ k ∈ links, ∃ inst, y.store.instances k.link.childInstanceID = some inst ∧
      k.terminal = inst.state.status.isTerminal ∧ (k.terminal = true → k.outcome = callOutcomeOf inst.state) ∧
      (inst.state.status.isTerminal = true → k.notified = false →
        ⟨k.link, callOutcomeOf inst.state⟩ ∈ links.claimPending 0)) ∧
    ∀ parentID, ∀ link ∈ links.listRunningChildren parentID, ∃ inst,
      y.store.instances link.childInstanceID = some inst ∧ inst.state.status.isTerminal = false := by
  have hall := (System.runs_follow hrun).links links hlinks
  refine ⟨?_, fun parentID link hlink => links_running hall hlink⟩
  intro k hk
  obtain ⟨inst, hinst, hterm, htells⟩ := hall k hk
  exact ⟨inst, hinst, hterm, htells, links_offer hall hk hinst⟩

/-! ## The SQL store -/

/-- A row tells of a child what the link of the in-memory store does. -/
def CallLinkRow.Tells (row : CallLinkRow) (k : MemLink) : Prop :=
  row.link = k.link ∧ if k.terminal then row.status = .notified ∨ row.flip k.outcome = row else row.status = .running

/-- A step does to the rows what it does to the links in memory; the table's key is the child's id. -/
theorem SqlRows.Stores.tells {s : SqlStore} {create : Bool} {token version v : Nat} {step : SqlStep} {arms : List JobSpec}
    {cancels : List (String × String)} {db db' : SqlRows} {m m' : MemInstanceStore}
    (h : SqlRows.Stores s create token step arms cancels version db db') (hlinks : m.callLinks = some links)
    (hmem : (if create then m.create step.toAppliedStep else m.commit token step.toAppliedStep) = .ok (m', v))
    (hkey : ∀ link, step.newCallLink = some link → ∀ k ∈ links, k.link.childInstanceID ≠ link.childInstanceID)
    (htells : List.Forall₂ CallLinkRow.Tells db.callLinks links) :
    ∃ links', m'.callLinks = some links' ∧ List.Forall₂ CallLinkRow.Tells db'.callLinks links' := by
  rw [h.callLinks, callLinksAfter]
  cases create with
  | true =>
    obtain ⟨-, -, -, -, hnew⟩ := MemInstanceStore.create_ok hmem
    rw [hnew, hlinks, if_pos rfl]
    cases hlink : step.newCallLink with
    | none => exact ⟨links, rfl, by rwa [Option.toList_none, List.map_nil, List.append_nil]⟩
    | some link =>
      have hkept : links.filter (fun l => l.link.childInstanceID != link.childInstanceID) = links :=
        List.filter_eq_self.mpr (fun k hk => bne_iff_ne.mpr (hkey link hlink k hk))
      refine ⟨links ++ [{ link := link }], ?_, List.rel_append htells ?_⟩
      · exact congrArg (fun l => some (l ++ [_])) hkept
      · exact .cons ⟨rfl, rfl⟩ .nil
  | false =>
    obtain ⟨inst, -, -, -, -, -, hend⟩ := MemInstanceStore.commit_ok hmem
    rw [hend, hlinks, if_neg Bool.false_ne_true]
    cases step.callOutcome with
    | none => exact ⟨links, rfl, htells⟩
    | some out =>
      refine ⟨links.markTerminal step.state.instanceID out, rfl, ?_⟩
      refine List.forall₂_map_left_iff.mpr (List.forall₂_map_right_iff.mpr (htells.imp (fun row k hrow => ?_)))
      rw [hrow.1]
      split
      · exact ⟨hrow.1, Or.inr rfl⟩
      · exact hrow

/-- A process that calls another. -/
def callsOther : ProcessDefinition := rowOf "parent" [{ id := "c", spec := .callActivity {} ⟨"child", 1⟩ }]

/-- A child with one user task. -/
def asksOnce : ProcessDefinition := rowOf "child" [userNode "u"]

/-- A child that ends at once. -/
def endsAtOnce : ProcessDefinition := rowOf "child" []

def linkingDriver : ProcessDriver none := { plainDriver with callLinks := true }

/-- A call goes on; the registry has the child's definition. -/
def goesOnWith (child : ProcessDefinition) (i : Nat) : Choice none := .advance i { now := 9, fuel := 50, definition := child }

/-- The parent starts, then its child, and both calls return. -/
def startsChild (child : ProcessDefinition) : List (Choice none) :=
  .start linkingDriver callsOther "i" 1 [] "" :: [0, 0, 1, 1, 1, 1, 0, 0, 0].map (goesOnWith child)

/-- The child of the link is stored as completed. -/
def childCompleted (y : System none) (k : MemLink) : Bool :=
  match y.store.instances k.link.childInstanceID with
  | some inst => inst.state.status == .completed
  | none => false

/-- The links have an entry with the property. -/
def someLink (y : System none) (p : MemCallLinks → MemLink → Bool) : Bool :=
  match y.store.callLinks with
  | some links => links.any (p links)
  | none => false

/-- The child's task is completed by a later call, and its end reaches the link. -/
theorem asked_child_is_offered : ∃ choices y links k inst,
    System.Runs System.Tracked (System.blank (some []) : System none) choices y ∧
    y.store.callLinks = some links ∧ k ∈ links ∧ y.store.instances k.link.childInstanceID = some inst ∧
    inst.state.status = .completed ∧ k.terminal = true ∧ k.outcome = callOutcomeOf inst.state := by
  have hplay : System.plays System.Tracked (System.blank (some []))
      (startsChild asksOnce ++
        [.apply linkingDriver asksOnce "i-sub-c1" ⟨3, .humanCompleted "i-sub-c1-h1" "" "" [] { id := "ann" }⟩ false,
        goesOnWith asksOnce 2, goesOnWith asksOnce 2])
      (fun y => someLink y (fun _ => childCompleted y)) = true := by decide
  obtain ⟨y, hrun, hQ⟩ := System.runs_of_plays hplay
  unfold someLink at hQ
  split at hQ
  · rename_i links hlinks
    obtain ⟨k, hk, hended⟩ := List.any_eq_true.mp hQ
    obtain ⟨inst, hinst, hterm, htells, -⟩ := (call_links_follow hrun hlinks).1 k hk
    dsimp only [childCompleted] at hended
    rw [hinst] at hended
    have hst : inst.state.status = .completed := beq_iff_eq.mp hended
    have hk' : k.terminal = true := by
      rw [hterm, hst]
      rfl
    exact ⟨_, y, links, k, inst, hrun, hlinks, hk, hinst, hst, hk', htells hk'⟩
  · cases hQ

/-- Every driver has the call-link store. -/
def System.Linking (_ : System gen) : Choice gen → Prop
  | .apply driver .. | .start driver .. => driver.callLinks = true
  | _ => True

instance (y : System gen) (choice : Choice gen) : Decidable (y.Linking choice) := by
  unfold System.Linking
  cases choice <;> infer_instance

/-- A child that ends in the step that creates it is listed as running and never offered. -/
theorem instant_child_is_not_offered : ∃ choices y links k inst,
    System.Runs System.Linking (System.blank (some []) : System none) choices y ∧
    y.store.callLinks = some links ∧ k ∈ links ∧ y.store.instances k.link.childInstanceID = some inst ∧
    inst.state.status = .completed ∧ k.terminal = false ∧ links.claimPending 0 = [] ∧
    k.link ∈ links.listRunningChildren "i" := by
  have hplay : System.plays System.Linking (System.blank (some [])) (startsChild endsAtOnce)
      (fun y => someLink y (fun links k => childCompleted y k && !k.terminal && (links.claimPending 0).isEmpty &&
        decide (k.link ∈ links.listRunningChildren "i"))) = true := by decide
  obtain ⟨y, hrun, hQ⟩ := System.runs_of_plays hplay
  unfold someLink at hQ
  split at hQ
  · rename_i links hlinks
    obtain ⟨k, hk, hstate⟩ := List.any_eq_true.mp hQ
    simp only [Bool.and_eq_true, Bool.not_eq_true', List.isEmpty_iff, decide_eq_true_eq] at hstate
    obtain ⟨⟨⟨hended, hopen⟩, hnone⟩, hlisted⟩ := hstate
    unfold childCompleted at hended
    split at hended
    · rename_i inst hinst
      exact ⟨_, y, links, k, inst, hrun, hlinks, hk, hinst, beq_iff_eq.mp hended, hopen, hnone, hlisted⟩
    · cases hended
  · cases hQ

end Wrkflw
