import Wrkflw.Runtime.MessageStarts

/-!
# One instance for a message's name and key

The id of a message start is a hash of the message's name and key, joined with a NUL. The store refuses a second instance
under an id, so that all deliveries of one pair come to one instance. But the NUL may stand in a name as well: two pairs are
joined to one text exactly where one name goes on with a NUL and a beginning of the other's key.

* `MessagePair.Clashes`, `messageStartInput_eq_iff` : which pairs are joined to one text;
* `CreatePhase`, `CreatePhase.does` : how far the call of a start has come, and what a transition makes of it;
* `Mailroom.Kept`, `Mailroom.Kept.step` : over all starts of a mailroom, no two of one id have created;
* `message_starts_one_per_pair` : what holds of every run, and where two pairs never share an id.
-/

namespace Wrkflw

variable {gen : Option IDGenerator}

/-! ## Ids -/

/-- The second name is the first with a NUL and a beginning of the first key, the second key the rest of it. -/
def ReadsInto (name key name' key' : String) : Prop := ∃ r, name' = name ++ "\x00" ++ r ∧ key = r ++ "\x00" ++ key'

def MessageStart.Clashes (a b : MessageStart) : Prop :=
  ReadsInto a.name a.key b.name b.key ∨ ReadsInto b.name b.key a.name a.key

theorem toList_messageStartInput (name key : String) :
    (messageStartInput name key).toList = name.toList ++ '\x00' :: key.toList := by
  unfold messageStartInput
  rw [String.toList_append, String.toList_append, List.append_assoc]
  rfl

theorem toList_joined (a b : String) : (a ++ "\x00" ++ b).toList = a.toList ++ '\x00' :: b.toList :=
  toList_messageStartInput a b

/-- One text of two pairs: the longer name has the NUL of the other join in it. -/
theorem pair_of_append {name key name' key' : String} {q : List Char} (hname : name'.toList = name.toList ++ q)
    (hkey : '\x00' :: key.toList = q ++ '\x00' :: key'.toList) :
    (name = name' ∧ key = key') ∨ ReadsInto name key name' key' := by
  cases q with
  | nil =>
    rw [List.append_nil] at hname
    exact .inl ⟨(String.toList_inj.mp hname).symm, String.toList_inj.mp (List.cons.inj hkey).2⟩
  | cons c r =>
    rw [List.cons_append] at hkey
    obtain ⟨rfl, hrest⟩ := List.cons.inj hkey
    refine .inr ⟨String.ofList r, ?_, ?_⟩
    · rw [← String.toList_inj, toList_joined, hname, String.toList_ofList]
    · rw [← String.toList_inj, toList_joined, hrest, String.toList_ofList]

theorem messageStartInput_eq_iff {name key name' key' : String} :
    messageStartInput name key = messageStartInput name' key' ↔
      (name = name' ∧ key = key') ∨ ReadsInto name key name' key' ∨ ReadsInto name' key' name key := by
  constructor
  · intro h
    have hl := congrArg String.toList h
    rw [toList_messageStartInput, toList_messageStartInput] at hl
    rcases List.append_eq_append_iff.mp hl with ⟨q, hname, hkey⟩ | ⟨q, hname, hkey⟩
    · rcases pair_of_append hname hkey with heq | hreads
      · exact .inl heq
      · exact .inr (.inl hreads)
    · rcases pair_of_append hname hkey with heq | hreads
      · exact .inl ⟨heq.1.symm, heq.2.symm⟩
      · exact .inr (.inr hreads)
  · have hreads : ∀ {n k n' k' : String}, ReadsInto n k n' k' → messageStartInput n k = messageStartInput n' k' := by
      rintro n k n' k' ⟨r, rfl, rfl⟩
      unfold messageStartInput
      simp only [String.append_assoc]
    rintro (⟨rfl, rfl⟩ | h | h)
    · rfl
    · exact hreads h
    · exact (hreads h).symm

/-- A name with a NUL and more is another name. -/
theorem ReadsInto.name_ne {name key name' key' : String} (h : ReadsInto name key name' key') : name ≠ name' := by
  obtain ⟨r, rfl, -⟩ := h
  intro heq
  have hlen := congrArg (fun s => s.toList.length) heq
  simp only [toList_joined, List.length_append, List.length_cons] at hlen
  omega

/-! ## The call of a start -/

/-- The call has created its instance. -/
def Delivery.created (c : Delivery gen) : Prop := c.deeds.committed ≠ []

/-- The instance a call begins with. -/
def Delivery.unborn (c : Delivery gen) : InstanceState := { instanceID := c.instanceID }

/-- How far the call of a start has come. -/
inductive CreatePhase (m : MemInstanceStore) (c : Delivery gen) : Prop
  | waiting (l : Loop) (hstage : c.stage = .iterate l) (hcreate : l.create = true) (hst : l.st = c.unborn)
      (hqueue : l.queue = [c.trigger]) (hnone : c.deeds.committed = [])
  /-- Its first step was refused, before the store was asked. -/
  | refused (e : DriverError) (fuel : Nat) (hstage : c.stage = .done (.error e)) (hnone : c.deeds.committed = [])
      (hprep : c.driver.prepare fuel c.definition c.unborn c.trigger = some (.error e))
  /-- The store had the instance. -/
  | duplicate (e : DriverError) (hstage : c.stage = .done (.error e)) (hnone : c.deeds.committed = [])
      (hexists : e.sentinel = some .instanceExists)
  | created (hsome : c.created) (hstored : m.instances c.instanceID ≠ none)
      (hlater : ∀ l, c.stage.loop? = some l → l.create = false)

section Does
variable {y : System gen} {w : World} {c c' : Delivery gen} {m : MemInstanceStore} {child : Option (Delivery gen)}

theorem Delivery.returns_deeds {e : DriverError} (h : c.retries = 0) : (c.returns e).deeds = c.deeds := by
  unfold Delivery.returns
  split
  · rw [h]
  · rfl

/-- What is stored stays stored. -/
theorem Delivery.Does.stored (hsound : y.Sound) (hc : c ∈ y.calls) (h : c.Does y w m c' child) {id : String}
    (hid : y.store.instances id ≠ none) : m.instances id ≠ none := by
  have hwritten : ∀ {l : Loop} {t : Trigger} {r : StepResult} {outcome : Option CallOutcome} {version : Nat},
      c.stage = .iterate l → c.driver.prepare w.fuel c.definition l.st t = some (.ok (r, outcome)) →
      Delivery.writes y.store l t r outcome = .ok (m, version) → m.instances id ≠ none := by
    intro l t r outcome version hstage hprep hwrite
    have hr := prepare_sound (hsound.held c hc l (by rw [hstage]; rfl)) hprep
    obtain ⟨-, hinst, -⟩ := Delivery.writes_ok hr.instanceID hwrite
    rw [hinst]
    by_cases heq : id = c.instanceID
    · rw [heq, MemInstanceStore.put_same]
      exact fun h => nomatch h
    · rwa [MemInstanceStore.put_other _ _ heq]
  cases h with
  | timersFail l hstage t queue hqueue r outcome hprep _ version hwrite e hfail => exact hwritten hstage hprep hwrite
  | commits l hstage t queue hqueue r outcome hprep _ version hwrite => exact hwritten hstage hprep hwrite
  | _ => exact hid

/-- A create is refused only where the instance exists. -/
theorem Delivery.writes_create_error {l : Loop} {t : Trigger} {r : StepResult} {outcome : Option CallOutcome} {e : StoreError}
    (hcreate : l.create = true) (h : Delivery.writes m l t r outcome = .error e) : e = .instanceExists := by
  unfold Delivery.writes at h
  dsimp only at h
  rw [if_pos hcreate] at h
  unfold MemInstanceStore.create at h
  split at h
  · exact (Except.error.inj h).symm
  · cases h

/-- Where a call that has created goes on: it has created still. -/
theorem CreatePhase.goes_on (hsome : c.created) (hstored : m.instances c.instanceID ≠ none)
    (hdeeds : c.deeds.committed <+: c'.deeds.committed) (hid : c'.instanceID = c.instanceID)
    (hlater : ∀ l, c'.stage.loop? = some l → l.create = false) : CreatePhase m c' := by
  refine .created (fun hnil => hsome ?_) (by rwa [hid]) hlater
  rw [hnil] at hdeeds
  exact List.prefix_nil.mp hdeeds

/-- The first step of a start: refused, or sent to the store. -/
theorem CreatePhase.first_step (hsound : y.Sound) (hc : c ∈ y.calls) (hretries : c.retries = 0) {l : Loop}
    (hstage : c.stage = .iterate l) (hcreate : l.create = true) (hst : l.st = c.unborn) (hqueue : l.queue = [c.trigger])
    (hnone : c.deeds.committed = []) (h : c.Does y w m c' child) :
    c'.retries = 0 ∧ c'.instanceID = c.instanceID ∧ CreatePhase m c' ∧
      (c'.created → c.created ∨ y.store.instances c.instanceID = none) := by
  have hwritten : ∀ {t : Trigger} {r : StepResult} {outcome : Option CallOutcome} {version : Nat},
      c.driver.prepare w.fuel c.definition l.st t = some (.ok (r, outcome)) →
      Delivery.writes y.store l t r outcome = .ok (m, version) →
      y.store.instances c.instanceID = none ∧ m.instances c.instanceID ≠ none := by
    intro t r outcome version hprep hwrite
    have hr := prepare_sound (hsound.held c hc l (by rw [hstage]; rfl)) hprep
    obtain ⟨hwas, hinst, -⟩ := Delivery.writes_ok hr.instanceID hwrite
    refine ⟨?_, by rw [hinst, MemInstanceStore.put_same]; exact fun h => nomatch h⟩
    rcases hwas with ⟨-, hwas⟩ | ⟨hold, -⟩
    · exact hwas
    · rw [hcreate] at hold
      cases hold
  cases h with
  | finishes l' hs hq =>
    cases hstage.symm.trans hs
    cases hqueue.symm.trans hq
  | refused l' hs t queue hq e hprep =>
    cases hstage.symm.trans hs
    cases hqueue.symm.trans hq
    rw [hst] at hprep
    rw [Delivery.returns_of_not_concurrent (prepare_error hprep)]
    exact ⟨hretries, rfl, .refused e w.fuel rfl hnone hprep, fun hsome => absurd hnone hsome⟩
  | loses l' hs t queue hq r outcome hprep e hwrite =>
    cases hstage.symm.trans hs
    cases Delivery.writes_create_error hcreate hwrite
    rw [Delivery.returns_of_not_concurrent rfl]
    exact ⟨hretries, rfl, .duplicate _ rfl hnone rfl, fun hsome => absurd hnone hsome⟩
  | timersFail l' hs t queue hq r outcome hprep _ version hwrite e hfail =>
    cases hstage.symm.trans hs
    obtain ⟨hwas, his⟩ := hwritten hprep hwrite
    have hdeeds : ((c.notesCommit t).returns (e.wrap "workflow-runtime: commit: ")).deeds = (c.notesCommit t).deeds :=
      Delivery.returns_deeds hretries
    refine ⟨Delivery.returns_retries hretries, Delivery.returns_instanceID, .created ?_ ?_ ?_, fun _ => .inr hwas⟩
    · unfold Delivery.created
      rw [hdeeds]
      exact List.append_ne_nil_of_right_ne_nil _ (List.cons_ne_nil _ _)
    · rw [Delivery.returns_instanceID]
      exact his
    · intro l hl
      rw [Delivery.returns_loop] at hl
      cases hl
  | commits l' hs t queue hq r outcome hprep _ version hwrite =>
    cases hstage.symm.trans hs
    obtain ⟨hwas, his⟩ := hwritten hprep hwrite
    refine ⟨hretries, rfl, .created (List.append_ne_nil_of_right_ne_nil _ (List.cons_ne_nil _ _)) his ?_, fun _ => .inr hwas⟩
    intro l hl
    cases hl
    rfl
  | notFound hs e he => exact nomatch hstage.symm.trans hs
  | loads hs st token hinst => exact nomatch hstage.symm.trans hs
  | performed l' hs => exact nomatch hstage.symm.trans hs
  | skips l' cmd commands hs htimer => exact nomatch hstage.symm.trans hs
  | performFails l' cmd commands hs e pre hfail => exact nomatch hstage.symm.trans hs
  | performs l' cmd commands hs t hanswers => exact nomatch hstage.symm.trans hs
  | spawns l' cmd commands hs hanswers child hlink => exact nomatch hstage.symm.trans hs
  | resumes l' commandID childID commands callee hs t => exact nomatch hstage.symm.trans hs

/-- A call that has created only goes on. -/
theorem CreatePhase.later_step (hretries : c.retries = 0) (hsome : c.created) (hstored : m.instances c.instanceID ≠ none)
    (hlater : ∀ l, c.stage.loop? = some l → l.create = false) (h : c.Does y w m c' child) :
    c'.retries = 0 ∧ c'.instanceID = c.instanceID ∧ CreatePhase m c' := by
  have hreturns : ∀ (b : Delivery gen) (e : DriverError), b.retries = 0 → b.instanceID = c.instanceID →
      c.deeds.committed <+: b.deeds.committed →
      (b.returns e).retries = 0 ∧ (b.returns e).instanceID = c.instanceID ∧ CreatePhase m (b.returns e) := by
    intro b e hb hid hdeeds
    refine ⟨Delivery.returns_retries hb, Delivery.returns_instanceID.trans hid, ?_⟩
    refine CreatePhase.goes_on hsome hstored (by rwa [Delivery.returns_deeds hb]) (Delivery.returns_instanceID.trans hid) ?_
    intro l hl
    rw [Delivery.returns_loop] at hl
    cases hl
  have hresumes : ∀ (b : Delivery gen) (l : Loop) (commands : List Command) (t : Option Trigger), b.retries = 0 →
      b.instanceID = c.instanceID → b.deeds.committed = c.deeds.committed → l.create = false →
      (b.resume l commands t).retries = 0 ∧ (b.resume l commands t).instanceID = c.instanceID ∧
        CreatePhase m (b.resume l commands t) := by
    intro b l commands t hb hid hdeeds hcreate
    refine ⟨by cases t <;> exact hb, Delivery.resume_instanceID.trans hid, ?_⟩
    refine CreatePhase.goes_on hsome hstored (by simp only [Delivery.resume_deeds, hdeeds, List.prefix_refl])
      (Delivery.resume_instanceID.trans hid) ?_
    intro l' hl
    rw [Delivery.resume_stage] at hl
    cases hl
    exact hcreate
  have hcreate : ∀ {l}, c.stage.loop? = some l → l.create = false := fun h => hlater _ h
  cases h with
  | notFound hs e he => exact hreturns c e hretries rfl (List.prefix_refl _)
  | loads hs st token hinst =>
    refine ⟨hretries, rfl, CreatePhase.goes_on hsome hstored (List.prefix_refl _) rfl ?_⟩
    intro l hl
    cases hl
    rfl
  | finishes l hs hq =>
    refine ⟨hretries, rfl, CreatePhase.goes_on hsome hstored (List.prefix_refl _) rfl ?_⟩
    intro l hl
    cases hl
  | refused l hs t queue hq e hprep => exact hreturns c e hretries rfl (List.prefix_refl _)
  | loses l hs t queue hq r outcome hprep e hwrite => exact hreturns c _ hretries rfl (List.prefix_refl _)
  | timersFail l hs t queue hq r outcome hprep _ version hwrite e hfail =>
    exact hreturns (c.notesCommit t) _ hretries rfl (List.prefix_append _ _)
  | commits l hs t queue hq r outcome hprep _ version hwrite =>
    refine ⟨hretries, rfl, CreatePhase.goes_on hsome hstored (List.prefix_append _ _) rfl ?_⟩
    intro l hl
    cases hl
    rfl
  | performed l hs =>
    refine ⟨hretries, rfl, CreatePhase.goes_on hsome hstored (List.prefix_refl _) rfl ?_⟩
    intro l' hl
    cases hl
    exact hcreate (by rw [hs]; rfl)
  | skips l cmd commands hs htimer =>
    refine ⟨hretries, rfl, CreatePhase.goes_on hsome hstored (List.prefix_refl _) rfl ?_⟩
    intro l' hl
    cases hl
    exact hcreate (by rw [hs]; rfl)
  | performFails l cmd commands hs e pre hfail => exact hreturns (c.notesDispatch cmd) _ hretries rfl (List.prefix_refl _)
  | performs l cmd commands hs t hanswers =>
    exact hresumes (c.notesDispatch cmd) l commands t hretries rfl rfl (hcreate (by rw [hs]; rfl))
  | spawns l cmd commands hs hanswers child hlink =>
    refine ⟨hretries, rfl, CreatePhase.goes_on hsome hstored (List.prefix_refl _) rfl ?_⟩
    intro l' hl
    cases hl
    exact hcreate (by rw [hs]; rfl)
  | resumes l commandID childID commands callee hs t =>
    exact hresumes c l commands t hretries rfl rfl (hcreate (by rw [hs]; rfl))

theorem CreatePhase.does (hsound : y.Sound) (hc : c ∈ y.calls) (hretries : c.retries = 0) (hphase : CreatePhase y.store c)
    (h : c.Does y w m c' child) :
    c'.retries = 0 ∧ c'.instanceID = c.instanceID ∧ CreatePhase m c' ∧
      (c'.created → c.created ∨ y.store.instances c.instanceID = none) := by
  cases hphase with
  | waiting l hstage hcreate hst hqueue hnone =>
    exact CreatePhase.first_step hsound hc hretries hstage hcreate hst hqueue hnone h
  | refused e fuel hstage hnone hprep => exact (h.not_done hstage).elim
  | duplicate e hstage hnone hexists => exact (h.not_done hstage).elim
  | created hsome hstored hlater =>
    obtain ⟨hr, hid, hphase⟩ := CreatePhase.later_step hretries hsome (h.stored hsound hc hstored) hlater h
    exact ⟨hr, hid, hphase, fun _ => .inl hsome⟩

/-- The phase of a call that waits for the others. -/
theorem CreatePhase.beside (hphase : CreatePhase y.store c)
    (hstored : y.store.instances c.instanceID ≠ none → m.instances c.instanceID ≠ none) : CreatePhase m c := by
  cases hphase with
  | waiting l hstage hcreate hst hqueue hnone => exact .waiting l hstage hcreate hst hqueue hnone
  | refused e fuel hstage hnone hprep => exact .refused e fuel hstage hnone hprep
  | duplicate e hstage hnone hexists => exact .duplicate e hstage hnone hexists
  | created hsome hthere hlater => exact .created hsome (hstored hthere) hlater

theorem CreatePhase.stored (hphase : CreatePhase m c) (hsome : c.created) : m.instances c.instanceID ≠ none := by
  cases hphase with
  | waiting l hstage hcreate hst hqueue hnone => exact absurd hnone hsome
  | refused e fuel hstage hnone hprep => exact absurd hnone hsome
  | duplicate e hstage hnone hexists => exact absurd hnone hsome
  | created _ hthere _ => exact hthere

end Does

/-! ## All starts of a mailroom -/

section Steps
variable {y z : System gen} {choice : Choice gen} {c : Delivery gen} {p : Nat}

/-- A choice leaves a call as it is, or is the call's own transition. -/
theorem System.step_call (hstep : y.step choice = some z) (hget : y.calls[p]? = some c) :
    (z.calls[p]? = some c ∧ ∀ w, choice ≠ .advance p w) ∨
      ∃ w c' child, choice = .advance p w ∧ z.calls[p]? = some c' ∧ c.Does y w z.store c' child := by
  have hlt : p < y.calls.length := (List.getElem?_eq_some_iff.mp hget).1
  cases choice with
  | apply driver d instanceID trg retrying =>
    cases hstep
    exact .inl ⟨by rwa [List.getElem?_append_left hlt], fun _ h => nomatch h⟩
  | start driver d instanceID at_ vars startNodeID =>
    cases hstep
    exact .inl ⟨by rwa [List.getElem?_append_left hlt], fun _ h => nomatch h⟩
  | markNotified childID =>
    cases hstep
    exact .inl ⟨hget, fun _ h => nomatch h⟩
  | advance i w =>
    obtain ⟨c0, m, c', child, hget0, hdoes, rfl⟩ := System.advance_does hstep
    have hlen : p < (y.calls.set i c').length := by rwa [List.length_set]
    by_cases hi : i = p
    · subst hi
      cases hget.symm.trans hget0
      refine .inr ⟨w, c', child, rfl, ?_, hdoes⟩
      rw [List.getElem?_append_left hlen, List.getElem?_set_self hlt]
    · refine .inl ⟨?_, fun w' h => hi (Choice.advance.inj h).1⟩
      rw [List.getElem?_append_left hlen, List.getElem?_set_ne hi]
      exact hget

theorem System.step_stored (hsound : y.Sound) (hstep : y.step choice = some z) {id : String}
    (h : y.store.instances id ≠ none) : z.store.instances id ≠ none := by
  cases choice with
  | apply driver d instanceID trg retrying =>
    cases hstep
    exact h
  | start driver d instanceID at_ vars startNodeID =>
    cases hstep
    exact h
  | markNotified childID =>
    cases hstep
    exact h
  | advance i w =>
    obtain ⟨c0, m, c', child, hget, hdoes, rfl⟩ := System.advance_does hstep
    exact hdoes.stored hsound (List.mem_of_getElem? hget) h

end Steps

/-- The delivery's call has created the instance. -/
def Mailroom.Created (x : Mailroom gen) (a : MessageStart) : Prop := ∃ c, x.system.calls[a.place]? = some c ∧ c.created

/-- The call of a start stands at its place. -/
def System.Holds (y : System gen) (a : MessageStart) : Prop :=
  ∃ c, y.calls[a.place]? = some c ∧ c.instanceID = a.id ∧ c.retries = 0 ∧ CreatePhase y.store c

structure Mailroom.Kept (sha256Hex : String → String) (x : Mailroom gen) : Prop where
  sound : x.system.Sound
  placed : ∀ a ∈ x.starts, x.system.Holds a
  named : ∀ a ∈ x.starts, a.id = messageStartInstanceID sha256Hex a.name a.key
  apart : x.starts.Pairwise (fun a b => a.place ≠ b.place)
  once : x.starts.Pairwise (fun a b => a.id = b.id → ¬ (x.Created a ∧ x.Created b))

section Kept
variable {sha256Hex : String → String} {x x' : Mailroom gen} {y z : System gen} {choice : Choice gen} {a b : MessageStart}

theorem System.Holds.step (hsound : y.Sound) (h : y.Holds a) (hstep : y.step choice = some z) : z.Holds a := by
  obtain ⟨c, hget, hid, hretries, hphase⟩ := h
  rcases System.step_call hstep hget with ⟨hsame, -⟩ | ⟨w, c', child, -, hget', hdoes⟩
  · exact ⟨c, hsame, hid, hretries, hphase.beside (System.step_stored hsound hstep)⟩
  · obtain ⟨hr, hid', hphase', -⟩ := hphase.does hsound (List.mem_of_getElem? hget) hretries hdoes
    exact ⟨c', hget', hid'.trans hid, hr, hphase'⟩

/-- A call creates only where the instance is not stored, and what another call of the id created is. -/
theorem Mailroom.created_before (hsound : x.system.Sound) (ha : x.system.Holds a)
    (hstep : x.system.step choice = some z) (hafter : Mailroom.Created { x with system := z } a) :
    x.Created a ∨ (∃ w, choice = .advance a.place w) ∧ x.system.store.instances a.id = none := by
  obtain ⟨c, hget, hid, hretries, hphase⟩ := ha
  obtain ⟨ca, hgeta, hcreated⟩ := hafter
  rcases System.step_call hstep hget with ⟨hsame, -⟩ | ⟨w, c', child, hchoice, hget', hdoes⟩
  · cases hsame.symm.trans hgeta
    exact .inl ⟨c, hget, hcreated⟩
  · cases hget'.symm.trans hgeta
    obtain ⟨-, -, -, hborn⟩ := hphase.does hsound (List.mem_of_getElem? hget) hretries hdoes
    rcases hborn hcreated with hwas | hnone
    · exact .inl ⟨c, hget, hwas⟩
    · exact .inr ⟨⟨w, hchoice⟩, hid ▸ hnone⟩

theorem Mailroom.Created.stored (hcreated : x.Created a) (ha : x.system.Holds a) :
    x.system.store.instances a.id ≠ none := by
  obtain ⟨c, hget, hid, -, hphase⟩ := ha
  obtain ⟨c', hget', hsome⟩ := hcreated
  cases hget.symm.trans hget'
  exact hid ▸ hphase.stored hsome

theorem Mailroom.Kept.system_step (h : x.Kept sha256Hex) (hstep : x.system.step choice = some z) :
    Mailroom.Kept sha256Hex { x with system := z } where
  sound := h.sound.step hstep
  placed a ha := (h.placed a ha).step h.sound hstep
  named := h.named
  apart := h.apart
  once := by
    refine List.Pairwise.imp_of_mem ?_ (h.apart.and h.once)
    rintro a b ha hb ⟨hapart, honce⟩ hid ⟨hca, hcb⟩
    have hHa := h.placed a ha
    have hHb := h.placed b hb
    rcases Mailroom.created_before h.sound hHa hstep hca with hwasa | ⟨⟨w, hia⟩, hnonea⟩
    · rcases Mailroom.created_before h.sound hHb hstep hcb with hwasb | ⟨-, hnoneb⟩
      · exact honce hid ⟨hwasa, hwasb⟩
      · exact hwasa.stored hHa (hid ▸ hnoneb)
    · rcases Mailroom.created_before h.sound hHb hstep hcb with hwasb | ⟨⟨w', hib⟩, -⟩
      · exact hwasb.stored hHb (hid ▸ hnonea)
      · exact hapart (Choice.advance.inj (hia.symm.trans hib)).1

theorem Mailroom.Kept.begins_start (h : x.Kept sha256Hex) (driver : ProcessDriver gen) (d : ProcessDefinition) (id : String)
    (at_ : Time) (payload : Vars) (nodeID : String) :
    (x.begins (.create driver d id ⟨at_, .startInstance payload nodeID⟩ 0 none)).Kept sha256Hex := by
  have hstep : x.system.step (.start driver d id at_ payload nodeID) =
      some { x.system with calls := x.system.calls ++ [.create driver d id ⟨at_, .startInstance payload nodeID⟩ 0 none] } :=
        rfl
  exact h.system_step hstep

theorem Mailroom.Kept.begins_apply (h : x.Kept sha256Hex) (driver : ProcessDriver gen) (d : ProcessDefinition) (id : String)
    (trg : Trigger) : (x.begins (.apply driver d id trg false)).Kept sha256Hex := by
  have hstep : x.system.step (.apply driver d id trg false) =
      some { x.system with calls := x.system.calls ++ [.apply driver d id trg false] } := rfl
  exact h.system_step hstep

/-- A call under an id of its own begins, and its place is recorded. -/
theorem Mailroom.Kept.starts_call (h : x.Kept sha256Hex) (driver : ProcessDriver gen) (d : ProcessDefinition) (at_ : Time)
    (payload : Vars) (nodeID name key : String) :
    Mailroom.Kept sha256Hex
      { x.begins (.create driver d (messageStartInstanceID sha256Hex name key)
        ⟨at_, .startInstance payload nodeID⟩ 0 none) with
        starts := x.starts ++ [⟨name, key, messageStartInstanceID sha256Hex name key, x.system.calls.length⟩] } := by
  have hbegun := h.begins_start driver d (messageStartInstanceID sha256Hex name key) at_ payload nodeID
  have hearlier : ∀ a ∈ x.starts, a.place < x.system.calls.length := by
    intro a ha
    obtain ⟨c, hget, -⟩ := h.placed a ha
    exact (List.getElem?_eq_some_iff.mp hget).1
  have hnew : (x.system.calls ++ [.create driver d (messageStartInstanceID sha256Hex name key)
      ⟨at_, .startInstance payload nodeID⟩ 0 none])[x.system.calls.length]? = some (.create driver d
        (messageStartInstanceID sha256Hex name key) ⟨at_, .startInstance payload nodeID⟩ 0 none) := by
    rw [List.getElem?_append_right (Nat.le_refl _), Nat.sub_self]
    rfl
  refine ⟨hbegun.sound, ?_, ?_, ?_, ?_⟩
  · intro a ha
    rcases List.mem_append.mp ha with ha | ha
    · exact hbegun.placed a ha
    · rw [List.mem_singleton.mp ha]
      exact ⟨_, hnew, rfl, rfl, .waiting _ rfl rfl rfl rfl rfl⟩
  · intro a ha
    rcases List.mem_append.mp ha with ha | ha
    · exact h.named a ha
    · rw [List.mem_singleton.mp ha]
  · refine List.pairwise_append.mpr ⟨h.apart, List.pairwise_singleton _ _, fun a ha b hb => ?_⟩
    rw [List.mem_singleton.mp hb]
    exact (hearlier a ha).ne
  · refine List.pairwise_append.mpr ⟨hbegun.once, List.pairwise_singleton _ _, fun a _ b hb _ hboth => ?_⟩
    -- the new call has done nothing yet
    rw [List.mem_singleton.mp hb] at hboth
    obtain ⟨-, c, hget, hsome⟩ := hboth
    cases hnew.symm.trans hget
    exact hsome rfl

theorem Mailroom.Kept.deliver (h : x.Kept sha256Hex) (env : MessageEnv gen) (name key : String) (payload : Vars) :
    (x.deliver sha256Hex env name key payload).Kept sha256Hex := by
  unfold Mailroom.deliver
  split
  · exact h
  · split
    · exact h
    · exact h
    · split
      · exact h
      · next d hd => exact h.begins_apply env.driver d _ _
    · next d nodeID hroute =>
      split
      · next id hid =>
        unfold messageStartID at hid
        split_ifs at hid with hkey hsingle
        · cases hid
          exact h.starts_call env.driver d env.now payload nodeID name key
        · cases hid
          rw [not_not.mp hkey]
          exact h.starts_call env.driver d env.now payload nodeID name ""
      · split
        · exact h
        · next id hid => exact h.begins_start env.driver d id env.now payload nodeID

theorem Mailroom.Kept.step {posting : Posting gen} (h : x.Kept sha256Hex) (hstep : x.step sha256Hex posting = some x') :
    x'.Kept sha256Hex := by
  cases posting with
  | system choice =>
    obtain ⟨y, hy, rfl⟩ := Option.map_eq_some_iff.mp hstep
    exact h.system_step hy
  | deliver env name key payload =>
    cases hstep
    exact h.deliver env name key payload

theorem Mailroom.blank_kept (links : Option MemCallLinks) : (Mailroom.blank links : Mailroom gen).Kept sha256Hex where
  sound := System.blank_sound links
  placed := fun _ h => nomatch h
  named := fun _ h => nomatch h
  apart := List.Pairwise.nil
  once := List.Pairwise.nil

/-! ## What holds of every run -/

/-- The first step of the call's instance is not refused. -/
def Delivery.Admissible (c : Delivery gen) : Prop :=
  ∀ fuel e, c.driver.prepare fuel c.definition c.unborn c.trigger ≠ some (.error e)

/-- The deliveries of one pair come to one instance, and those that did not create it return without an error. -/
structure Mailroom.OnePerPair (x : Mailroom gen) : Prop where
  once : x.starts.Pairwise (fun a b => a.name = b.name → a.key = b.key → ¬ (x.Created a ∧ x.Created b))
  /-- A delivery that returned, and whose call created nothing. -/
  quiet : ∀ a ∈ x.starts, ∀ c result, x.system.calls[a.place]? = some c → c.stage = .done result → ¬ c.created →
    c.Admissible → startResult result = .ok ()
  /-- A delivery that finds the instance returns with its next step. -/
  returns : ∀ a ∈ x.starts, ∀ c, x.system.calls[a.place]? = some c → (∀ result, c.stage ≠ .done result) → ¬ c.created →
    x.system.store.instances a.id ≠ none →
    ∀ w out, c.driver.prepare w.fuel c.definition c.unborn c.trigger = some (.ok out) →
      ∃ z c' result, x.system.step (.advance a.place w) = some z ∧ z.calls[a.place]? = some c' ∧ c'.stage = .done result ∧
        startResult result = .ok ()

theorem Mailroom.Kept.quiet (h : x.Kept sha256Hex) (ha : a ∈ x.starts) {c : Delivery gen}
    {result : Except DriverError InstanceState} (hget : x.system.calls[a.place]? = some c) (hdone : c.stage = .done result)
    (hnone : ¬ c.created) (hadm : c.Admissible) : startResult result = .ok () := by
  obtain ⟨c', hget', -, -, hphase⟩ := h.placed a ha
  cases hget.symm.trans hget'
  cases hphase with
  | waiting l hstage => exact nomatch hdone.symm.trans hstage
  | refused e fuel hstage hno hprep => exact absurd hprep (hadm fuel e)
  | duplicate e hstage hno hexists =>
    cases hdone.symm.trans hstage
    exact if_pos hexists
  | created hsome => exact absurd hsome hnone

theorem Mailroom.Kept.returns (h : x.Kept sha256Hex) (ha : a ∈ x.starts) {c : Delivery gen}
    (hget : x.system.calls[a.place]? = some c) (hrunning : ∀ result, c.stage ≠ .done result) (hnone : ¬ c.created)
    (hstored : x.system.store.instances a.id ≠ none) {w : World} {out : StepResult × Option CallOutcome}
    (hprep : c.driver.prepare w.fuel c.definition c.unborn c.trigger = some (.ok out)) :
    ∃ z c' result, x.system.step (.advance a.place w) = some z ∧ z.calls[a.place]? = some c' ∧ c'.stage = .done result ∧
      startResult result = .ok () := by
  obtain ⟨c', hget', hid, hretries, hphase⟩ := h.placed a ha
  cases hget.symm.trans hget'
  cases hphase with
  | waiting l hstage hcreate hst hqueue hno =>
    obtain ⟨r, outcome⟩ := out
    have hr := prepare_sound (h.sound.held c (List.mem_of_getElem? hget) l (by rw [hstage]; rfl)) (hst ▸ hprep)
    have hwrites : Delivery.writes x.system.store l c.trigger r outcome = .error .instanceExists := by
      unfold Delivery.writes
      dsimp only
      rw [if_pos hcreate]
      unfold MemInstanceStore.create
      dsimp only
      rw [hr.instanceID, hid]
      cases hinst : x.system.store.instances a.id with
      | none => exact absurd hinst hstored
      | some inst => rfl
    let e := (DriverError.ofStore .instanceExists).wrap "workflow-runtime: commit: "
    have hiterate : c.iterate w x.system.store l c.trigger [] = some (x.system.store, c.returns e) := by
      unfold Delivery.iterate
      rw [hst, hprep]
      dsimp only
      rw [hwrites]
    have hplace : (x.system.calls.set a.place (c.returns e))[a.place]? = some (c.returns e) :=
      List.getElem?_set_self (List.getElem?_eq_some_iff.mp hget).1
    refine ⟨⟨x.system.store, x.system.calls.set a.place (c.returns e)⟩, c.returns e, .error e, ?_, hplace, ?_, rfl⟩
    · show x.system.advance a.place w = _
      unfold System.advance
      rw [hget]
      dsimp only
      rw [hstage]
      dsimp only
      rw [hqueue]
      dsimp only
      rw [hiterate]
      rfl
    · rw [Delivery.returns_of_not_concurrent rfl]
  | refused e fuel hstage => exact absurd hstage (hrunning _)
  | duplicate e hstage => exact absurd hstage (hrunning _)
  | created hsome => exact absurd hsome hnone

theorem Mailroom.Kept.onePerPair (h : x.Kept sha256Hex) : x.OnePerPair where
  once := by
    refine List.Pairwise.imp_of_mem ?_ h.once
    intro a b ha hb honce hname hkey
    refine honce ?_
    rw [h.named a ha, h.named b hb, hname, hkey]
  quiet _ ha _ _ hget hdone hnone hadm := h.quiet ha hget hdone hnone hadm
  returns _ ha _ hget hrunning hnone hstored _ _ hprep := h.returns ha hget hrunning hnone hstored hprep

end Kept

/-- In every run the deliveries of one pair come to one instance, and the others of them return without an error; two pairs
never share an id exactly where no two of them clash. -/
theorem message_starts_one_per_pair (sha256Hex : String → String) (links : Option MemCallLinks)
    {postings : List (Posting gen)}
    {x : Mailroom gen} (hrun : Library.Runs (Mailroom.step sha256Hex) (fun _ _ => True) (Mailroom.blank links) postings x)
    (hsha : ∀ a ∈ x.starts, ∀ b ∈ x.starts, sha256Hex (messageStartInput a.name a.key) =
      sha256Hex (messageStartInput b.name b.key) → messageStartInput a.name a.key = messageStartInput b.name b.key) :
    x.OnePerPair ∧
      ((∀ a ∈ x.starts, ∀ b ∈ x.starts, (a.name, a.key) ≠ (b.name, b.key) → a.id ≠ b.id) ↔
        ∀ a ∈ x.starts, ∀ b ∈ x.starts, ¬ a.Clashes b) := by
  have hkept : x.Kept sha256Hex := hrun.invariant (Mailroom.blank_kept links) (fun h _ hstep => h.step hstep)
  have hid : ∀ a ∈ x.starts, ∀ b ∈ x.starts, (a.id = b.id ↔ (a.name = b.name ∧ a.key = b.key) ∨ a.Clashes b) := by
    intro a ha b hb
    have hinput : (a.name = b.name ∧ a.key = b.key) ∨ a.Clashes b ↔
        messageStartInput a.name a.key = messageStartInput b.name b.key := messageStartInput_eq_iff.symm
    rw [hkept.named a ha, hkept.named b hb, hinput]
    constructor
    · intro h
      have hl := congrArg String.toList h
      unfold messageStartInstanceID at hl
      rw [String.toList_append, String.toList_append] at hl
      exact hsha a ha b hb (String.toList_inj.mp (List.append_cancel_left hl))
    · intro h
      unfold messageStartInstanceID
      rw [h]
  refine ⟨hkept.onePerPair, ?_, ?_⟩
  · intro h a ha b hb hclash
    refine h a ha b hb ?_ ((hid a ha b hb).mpr (.inr hclash))
    intro heq
    rcases hclash with hreads | hreads
    · exact hreads.name_ne (Prod.mk.inj heq).1
    · exact hreads.name_ne (Prod.mk.inj heq).1.symm
  · intro h a ha b hb hne heq
    rcases (hid a ha b hb).mp heq with hsame | hclash
    · exact hne (Prod.ext hsame.1 hsame.2)
    · exact h a ha b hb hclash

/-- A definition that a message starts. -/
def messageDef (id name : String) : ProcessDefinition where
  id := id
  version := 1
  nodes := [{ id := "s", spec := .startEvent { messageName := name } }, endNode "e"]
  flows := [{ id := "f", source := "s", target := "e" }]

def messageEnv (defs : List ProcessDefinition) : MessageEnv none where
  driver := plainDriver
  defs := defs
  now := 0

/-- The digests of SHA-256, for the texts the runs below have digested. -/
def sha256Known (s : String) : String :=
  if s = "m\x00k" then "c7dd2d605ba8c0d625a76e36fcab05a7f26e789368dbeaacd9e3d4cbb35d1a2a"
  else if s = "a\x00b\x00c" then "8badde10c760e9b702defb4b5e225de79c515b1d2a5cfb000e140f3c6fbb5629"
  else "e3b0c44298fc1c149afbf4c8996fb92427ae41e4649b934ca495991b7852b855"

/-- The start that a delivery of the pair comes to. -/
def startOf (name key : String) (place : Nat) : MessageStart :=
  ⟨name, key, messageStartInstanceID sha256Known name key, place⟩

/-- One message is delivered twice, and both calls run on. -/
def twiceDelivered : List (Posting none) :=
  [.deliver (messageEnv [messageDef "d" "m"]) "m" "k" [], .deliver (messageEnv [messageDef "d" "m"]) "m" "k" [],
    .system (.advance 1 { now := 0, fuel := 9 }), .system (.advance 0 { now := 0, fuel := 9 })]

/-- What the starts have come to: whether the call created, and whether it returned without an error. -/
def Mailroom.course (x : Mailroom gen) : List (MessageStart × Option (Bool × Bool)) :=
  x.starts.map (fun a => (a, x.system.calls[a.place]?.map (fun c =>
    (!c.deeds.committed.isEmpty, match c.stage with | .done result => (startResult result).isOk | _ => false))))

/-- The later of two deliveries creates the instance, the earlier returns without an error. -/
theorem twice_delivered_once :
    ∃ x : Mailroom none, Library.Runs (Mailroom.step sha256Known) (fun _ _ => True) (Mailroom.blank none) twiceDelivered x ∧
      x.course = [(startOf "m" "k" 0, some (false, true)), (startOf "m" "k" 1, some (true, false))] ∧
      x.OnePerPair ∧ ((∀ a ∈ x.starts, ∀ b ∈ x.starts, (a.name, a.key) ≠ (b.name, b.key) → a.id ≠ b.id) ↔
        ∀ a ∈ x.starts, ∀ b ∈ x.starts, ¬ a.Clashes b) := by
  have hplay : Library.plays (Mailroom.step sha256Known) (fun _ _ => True) (Mailroom.blank none) twiceDelivered
      (fun x => x.course = [(startOf "m" "k" 0, some (false, true)), (startOf "m" "k" 1, some (true, false))]) = true := by
    decide
  obtain ⟨x, hrun, hcourse⟩ := Library.runs_of_plays hplay
  have hcourse := of_decide_eq_true hcourse
  refine ⟨x, hrun, hcourse, message_starts_one_per_pair sha256Known none hrun (fun a ha b hb _ => ?_)⟩
  -- both starts are of the one pair
  have hstarts : x.starts = [startOf "m" "k" 0, startOf "m" "k" 1] := by
    have hfst := congrArg (List.map Prod.fst) hcourse
    unfold Mailroom.course at hfst
    rw [List.map_map] at hfst
    exact (List.map_id x.starts).symm.trans hfst
  have hpair : ∀ c ∈ x.starts, messageStartInput c.name c.key = messageStartInput "m" "k" := by
    rw [hstarts]
    decide
  exact (hpair a ha).trans (hpair b hb).symm

/-- Two messages whose names and keys are joined to one text. -/
def joinedPairs : List (Posting none) :=
  [.deliver (messageEnv [messageDef "d" "a", messageDef "d2" "a\x00b"]) "a" "b\x00c" [],
    .deliver (messageEnv [messageDef "d" "a", messageDef "d2" "a\x00b"]) "a\x00b" "c" [],
    .system (.advance 0 { now := 0, fuel := 9 }), .system (.advance 1 { now := 0, fuel := 9 })]

/-- The second finds the instance of the first, starts none of its own and returns without an error. -/
theorem joined_pairs_share_instance :
    ∃ x : Mailroom none, Library.Runs (Mailroom.step sha256Known) (fun _ _ => True) (Mailroom.blank none) joinedPairs x ∧
      (startOf "a" "b\x00c" 0).id = (startOf "a\x00b" "c" 1).id ∧
      x.course = [(startOf "a" "b\x00c" 0, some (true, false)), (startOf "a\x00b" "c" 1, some (false, true))] := by
  have hplay : Library.plays (Mailroom.step sha256Known) (fun _ _ => True) (Mailroom.blank none) joinedPairs
      (fun x => x.course = [(startOf "a" "b\x00c" 0, some (true, false)),
        (startOf "a\x00b" "c" 1, some (false, true))]) = true := by decide
  obtain ⟨x, hrun, hcourse⟩ := Library.runs_of_plays hplay
  exact ⟨x, hrun, by decide, of_decide_eq_true hcourse⟩

end Wrkflw
