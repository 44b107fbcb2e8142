import Wrkflw.Runtime.DefinitionCache
import Wrkflw.Store.Outbox
import Wrkflw.Library.Runs

/-!
# Cached definitions

A lookup through the caching registry returns what the backing registry answered for the text of its reference within the
time to live (`Sourced`), where no time passes between a flight's reading of the clock and the use of it (`prompt`). Two
references have one text when one is the latest of an id that reads like the other, and then one is answered with the
definition of the other.

* `Qualifier.Shadows` : a latest reference that reads like a pinned one;
* `toText_eq_iff` : which references have one text;
* `DefinitionCache.Sourced` : what holds along every such run.
-/

namespace Wrkflw

variable {q q' : Qualifier}

/-! ## Texts of references -/

/-- The latest of an id that reads like the pinned reference. -/
def Qualifier.Shadows (q q' : Qualifier) : Prop :=
  q.version = 0 ∧ q'.version ≠ 0 ∧ q.id = q'.id ++ ":" ++ toString q'.version

def Qualifier.Clashes (q q' : Qualifier) : Prop := q.Shadows q' ∨ q'.Shadows q

theorem Qualifier.Clashes.symm (h : q.Clashes q') : q'.Clashes q := Or.symm h

instance (q q' : Qualifier) : Decidable (q.Shadows q') := inferInstanceAs (Decidable (_ ∧ _ ∧ _))

instance (q q' : Qualifier) : Decidable (q.Clashes q') := inferInstanceAs (Decidable (_ ∨ _))

variable {δ : Type} {s s' : DefinitionCache δ} {c c' : LookupCall δ} {i : Nat} {now : Time} {answer : Option δ}
  {stage : LookupStage δ}

/-- The definition is an answer of the backing registry for a reference related to the lookup's own, which came while the
lookup was under way or was no older than the time to live when the lookup was made. -/
def LookupCall.Gets (s : DefinitionCache δ) (c : LookupCall δ) (R : Qualifier → Qualifier → Prop) (d : δ) : Prop :=
  ∃ k a, s.answers[k]? = some a ∧ R a.qualifier c.qualifier ∧ a.definition = d ∧
    (c.asked ≤ k ∨ c.madeAt ≤ a.answeredAt + s.ttl)

/-- A definition that the lookup returned is such an answer. -/
def LookupCall.Served (s : DefinitionCache δ) (c : LookupCall δ) (R : Qualifier → Qualifier → Prop) : Prop :=
  match c.stage with
  | .returned (.hit d) | .returned (.answered d) => c.Gets s R d
  | _ => True

/-- Two references with one text. -/
def SameText (q q' : Qualifier) : Prop := q.toText = q'.toText

namespace DefinitionCache

/-- No time passes in a flight: a flight does not read an earlier time than a lookup of its key did, a lookup of its
key that is made before it has looked at the cache does not read a later one, the reading behind an expiry is not
later than the answer, and a lookup made before the answer is cached is made within the time to live of it. -/
def prompt (s : DefinitionCache δ) : LookupChoice δ → Bool
  | .lookup q now => s.calls.all (fun c => c.key != q.toText || match c.stage with
    | .checks read => decide (now ≤ read)
    | .stores _ answeredAt => decide (now ≤ answeredAt + s.ttl)
    | _ => true)
  | .goOn i now _ => match s.calls[i]? with
    | none => true
    | some c => match c.stage with
      | .leads => s.calls.all (fun c' => c'.key != c.key || decide (c'.madeAt ≤ now))
      | .stores _ answeredAt => decide (now ≤ answeredAt)
      | _ => true

/-- What a lookup in a flight relies on, and what one that has returned was given. -/
def CallOk (s : DefinitionCache δ) (c : LookupCall δ) : Prop :=
  match c.stage with
  | .checks read => ∀ c' ∈ s.calls, c'.key = c.key → c'.madeAt ≤ read
  | .stores d answeredAt => (∃ a ∈ s.answers, a.qualifier.toText = c.key ∧ a.definition = d ∧ a.answeredAt = answeredAt) ∧
    ∀ c' ∈ s.calls, c'.key = c.key → c'.Gets s SameText d
  | _ => c.Served s SameText

/-- What holds along every run in which no time passes in a flight. -/
structure Sourced (s : DefinitionCache δ) : Prop where
  entries : ∀ key e, s.entries key = some e →
    ∃ a ∈ s.answers, a.qualifier.toText = key ∧ a.definition = e.definition ∧ e.expiresAt ≤ a.answeredAt + s.ttl
  asked : ∀ a ∈ s.answers, ∃ c ∈ s.calls, c.qualifier = a.qualifier
  before : ∀ c ∈ s.calls, c.asked ≤ s.answers.length
  calls : ∀ c ∈ s.calls, s.CallOk c

/-- What was read from the cache was answered and is fresh for every lookup that reads no later time. -/
theorem Sourced.fresh (h : s.Sourced) {key : String} {d : δ} (hf : s.fresh key now = some d) (hkey : c.key = key)
    (hmade : c.madeAt ≤ now) : c.Gets s SameText d := by
  unfold DefinitionCache.fresh at hf
  split at hf
  · rename_i e he
    split at hf
    · rename_i hlt
      obtain ⟨a, ha, htext, hd, hexp⟩ := h.entries key e he
      obtain ⟨k, hk⟩ := List.getElem?_of_mem ha
      refine ⟨k, a, hk, htext.trans hkey.symm, hd.trans (Option.some.inj hf), Or.inr ?_⟩
      exact Int.le_trans hmade (Int.le_trans (Int.le_of_lt hlt) hexp)
    · cases hf
  · cases hf

/-- Both were made as one lookup. -/
def SameCall (c c' : LookupCall δ) : Prop := c'.qualifier = c.qualifier ∧ c'.madeAt = c.madeAt ∧ c'.asked = c.asked

theorem SameCall.gets {R : Qualifier → Qualifier → Prop} {d : δ} (hsame : SameCall c c') (h : c.Gets s R d) :
    c'.Gets s R d := by
  obtain ⟨hq, hmade, hasked⟩ := hsame
  unfold LookupCall.Gets at h ⊢
  rw [hq, hmade, hasked]
  exact h

/-- What a call relies on stays where the answers grow and the lookups are the same. -/
theorem CallOk.mono (h : s.CallOk c) (httl : s'.ttl = s.ttl) (hanswers : ∃ more, s'.answers = s.answers ++ more)
    (hcalls : ∀ c' ∈ s'.calls, ∃ c0 ∈ s.calls, SameCall c0 c') : s'.CallOk c := by
  obtain ⟨more, hmore⟩ := hanswers
  have hgets : ∀ {c' : LookupCall δ} {d : δ}, c'.Gets s SameText d → c'.Gets s' SameText d := by
    rintro c' d ⟨k, a, hk, hrest⟩
    refine ⟨k, a, ?_, httl ▸ hrest⟩
    rw [hmore, List.getElem?_append_left (List.getElem?_eq_some_iff.mp hk).1]
    exact hk
  have hkey : ∀ {c0 c' : LookupCall δ}, SameCall c0 c' → c'.key = c.key → c0.key = c.key := by
    intro c0 c' hsame hkey
    unfold LookupCall.key at hkey ⊢
    rw [← hsame.1]
    exact hkey
  unfold CallOk at h ⊢
  split at h
  · intro c' hc' hk
    obtain ⟨c0, hc0, hsame⟩ := hcalls c' hc'
    rw [hsame.2.1]
    exact h c0 hc0 (hkey hsame hk)
  · obtain ⟨⟨a, ha, hrest⟩, hall⟩ := h
    refine ⟨⟨a, hmore ▸ List.mem_append_left _ ha, hrest⟩, fun c' hc' hk => ?_⟩
    obtain ⟨c0, hc0, hsame⟩ := hcalls c' hc'
    exact hgets (hsame.gets (hall c0 hc0 (hkey hsame hk)))
  · unfold LookupCall.Served at h ⊢
    split at h
    · exact hgets h
    · exact hgets h
    · trivial

/-- The calls change in nothing but the stage they are at. -/
theorem Sourced.of_stages (h : s.Sourced) {share : LookupCall δ → LookupCall δ}
    (hsame : ∀ c', SameCall c' (share c')) (hshared : ∀ c' ∈ s.calls, s.CallOk (share c')) (hi : s.calls[i]? = some c)
    (hok : s.CallOk { c with stage := stage }) :
    Sourced { s with calls := (s.calls.map share).set i { c with stage := stage } } := by
  have hback : ∀ c' ∈ (s.calls.map share).set i { c with stage := stage }, ∃ c0 ∈ s.calls, SameCall c0 c' := by
    intro c' hc'
    rcases List.mem_or_eq_of_mem_set hc' with hmap | rfl
    · obtain ⟨c0, hc0, rfl⟩ := List.mem_map.mp hmap
      exact ⟨c0, hc0, hsame c0⟩
    · exact ⟨c, List.mem_of_getElem? hi, rfl, rfl, rfl⟩
  refine ⟨h.entries, fun a ha => ?_, fun c' hc' => ?_, fun c' hc' => ?_⟩
  · obtain ⟨c', hc', hq⟩ := h.asked a ha
    obtain ⟨j, hj⟩ := List.getElem?_of_mem hc'
    by_cases hij : i = j
    · have hc : c' = c := Option.some.inj (hj.symm.trans (hij ▸ hi))
      refine ⟨{ c with stage := stage }, List.mem_of_getElem? (i := i) ?_, hc ▸ hq⟩
      rw [List.getElem?_set_self (by rw [List.length_map]; exact (List.getElem?_eq_some_iff.mp hi).1)]
    · refine ⟨share c', List.mem_of_getElem? (i := j) ?_, (hsame c').1.trans hq⟩
      rw [List.getElem?_set_ne hij, List.getElem?_map, hj]
      rfl
  · obtain ⟨c0, hc0, -, -, hasked⟩ := hback c' hc'
    exact hasked ▸ h.before c0 hc0
  · have hold : s.CallOk c' := by
      rcases List.mem_or_eq_of_mem_set hc' with hmap | rfl
      · obtain ⟨c0, hc0, rfl⟩ := List.mem_map.mp hmap
        exact hshared c0 hc0
      · exact hok
    exact hold.mono rfl ⟨[], (List.append_nil _).symm⟩ hback

theorem Sourced.goTo (h : s.Sourced) (hi : s.calls[i]? = some c)
    (hok : s.CallOk { c with stage := stage }) : (s.goTo i c stage).Sourced := by
  have hsame : ∀ c' : LookupCall δ, SameCall c' (id c') := fun _ => ⟨rfl, rfl, rfl⟩
  have hstages := h.of_stages hsame h.calls hi hok
  rw [List.map_id] at hstages
  exact hstages

/-- A flight ends, and those that share it return what it returns. -/
theorem Sourced.land (h : s.Sourced) {found : Found δ} (hi : s.calls[i]? = some c)
    (hfound : ∀ c' ∈ s.calls, c'.key = c.key → s.CallOk { c' with stage := .returned found }) :
    (s.land i c found).Sourced := by
  refine h.of_stages (fun c' => ?_) (fun c' hc' => ?_) hi (hfound c (List.mem_of_getElem? hi) rfl)
  · split
    · exact ⟨rfl, rfl, rfl⟩
    · exact ⟨rfl, rfl, rfl⟩
  · split
    · rename_i hshares
      rw [Bool.and_eq_true, beq_iff_eq] at hshares
      exact hfound c' hc' hshares.1
    · exact h.calls c' hc'

/-- The backing registry has answered. -/
theorem Sourced.answered (h : s.Sourced) (hi : s.calls[i]? = some c) (d : δ) (now : Time) :
    Sourced { s with answers := s.answers ++ [⟨c.qualifier, d, now⟩] } where
  entries := fun key e he => by
    obtain ⟨a, ha, hrest⟩ := h.entries key e he
    exact ⟨a, List.mem_append_left _ ha, hrest⟩
  asked := fun a ha => by
    rcases List.mem_append.mp ha with ha | ha
    · exact h.asked a ha
    · rw [List.mem_singleton.mp ha]
      exact ⟨c, List.mem_of_getElem? hi, rfl⟩
  before := fun c' hc' => by
    rw [List.length_append]
    exact (h.before c' hc').trans (Nat.le_add_right _ _)
  calls := fun c' hc' => (h.calls c' hc').mono rfl ⟨_, rfl⟩ (fun c0 hc0 => ⟨c0, hc0, rfl, rfl, rfl⟩)

/-- The answer is cached. -/
theorem Sourced.store (h : s.Sourced) {d : δ} {answeredAt : Time} (hle : now ≤ answeredAt)
    (ha : ∃ a ∈ s.answers, a.qualifier.toText = c.key ∧ a.definition = d ∧ a.answeredAt = answeredAt) :
    Sourced { s with entries := Function.update s.entries c.key (some ⟨d, now + s.ttl⟩) } where
  entries := fun key e he => by
    change Function.update s.entries c.key _ key = some e at he
    by_cases hkey : key = c.key
    · rw [hkey] at he ⊢
      rw [Function.update_self] at he
      rw [← Option.some.inj he]
      obtain ⟨a, ha, htext, hd, hat⟩ := ha
      exact ⟨a, ha, htext, hd, hat ▸ Int.add_le_add_right hle _⟩
    · rw [Function.update_of_ne hkey] at he
      exact h.entries key e he
  asked := h.asked
  before := h.before
  calls := fun c' hc' => (h.calls c' hc').mono rfl ⟨[], (List.append_nil _).symm⟩ (fun c0 hc0 => ⟨c0, hc0, rfl, rfl, rfl⟩)

/-- One action of a lookup. -/
theorem Sourced.goOn (h : s.Sourced) (hi : s.calls[i]? = some c) (hprompt : s.prompt (.goOn i now answer) = true)
    (hstep : s.goOn i c now answer = some s') : s'.Sourced := by
  have hok := h.calls c (List.mem_of_getElem? hi)
  unfold prompt at hprompt
  unfold CallOk at hok
  unfold DefinitionCache.goOn at hstep
  dsimp only at hprompt
  rw [hi] at hprompt
  dsimp only at hprompt
  split at hstep
  · split at hstep
    · rename_i d hfresh
      cases hstep
      exact h.goTo hi (h.fresh (c := { c with stage := .returned (.hit d) }) hfresh rfl (Int.le_refl _))
    · cases hstep
      exact h.goTo hi trivial
  · cases hstep
    refine h.goTo hi ?_
    split
    · trivial
    · trivial
  · rename_i hstage
    cases hstep
    rw [hstage] at hprompt
    refine h.goTo hi (fun c' hc' hkey => ?_)
    have hone := List.all_eq_true.mp hprompt c' hc'
    have hkey : c'.key = c.key := hkey
    simpa [hkey] using hone
  · rename_i read hstage
    rw [hstage] at hok
    split at hstep
    · rename_i d hfresh
      cases hstep
      refine h.land hi (fun c' hc' hsame => ?_)
      exact h.fresh (c := { c' with stage := .returned (.hit d) }) hfresh hsame (hok c' hc' hsame)
    · cases hstep
      exact h.goTo hi trivial
  · split at hstep
    · rename_i d
      cases hstep
      refine (h.answered hi d now).goTo hi ⟨⟨_, List.mem_append_right _ (List.mem_singleton.mpr rfl), rfl, rfl, rfl⟩, ?_⟩
      intro c' hc' hkey
      exact ⟨s.answers.length, _, List.getElem?_concat_length, hkey.symm, rfl, Or.inl (h.before c' hc')⟩
    · cases hstep
      exact h.land hi (fun _ _ _ => trivial)
  · rename_i d answeredAt hstage
    cases hstep
    rw [hstage] at hok hprompt
    obtain ⟨ha, hall⟩ := hok
    exact (h.store (by simpa using hprompt) ha).land hi (fun c' hc' hsame => hall c' hc' hsame)
  · cases hstep
  · cases hstep

theorem Sourced.step (h : s.Sourced) {choice : LookupChoice δ} (hprompt : s.prompt choice = true)
    (hstep : s.step choice = some s') : s'.Sourced := by
  cases choice with
  | lookup q now =>
    cases hstep
    have hone := List.all_eq_true.mp hprompt
    refine ⟨h.entries, fun a ha => ?_, fun c hc => ?_, fun c hc => ?_⟩
    · obtain ⟨c, hc, hq⟩ := h.asked a ha
      exact ⟨c, List.mem_append_left _ hc, hq⟩
    · rcases List.mem_append.mp hc with hc | hc
      · exact h.before c hc
      · rw [List.mem_singleton.mp hc]
    · rcases List.mem_append.mp hc with hc | hc
      · have hok := h.calls c hc
        have hnew := hone c hc
        unfold CallOk at hok ⊢
        -- the new lookup is one more of those a flight of its key answers
        split at hok
        · rename_i read hstage
          rw [hstage] at hnew
          intro c' hc' hkey
          rcases List.mem_append.mp hc' with hc' | hc'
          · exact hok c' hc' hkey
          · rw [List.mem_singleton.mp hc'] at hkey ⊢
            have hkey : q.toText = c.key := hkey
            simpa [hkey] using hnew
        · rename_i d answeredAt hstage
          rw [hstage] at hnew
          obtain ⟨⟨a, ha, htext, hd, hat⟩, hall⟩ := hok
          refine ⟨⟨a, ha, htext, hd, hat⟩, fun c' hc' hkey => ?_⟩
          rcases List.mem_append.mp hc' with hc' | hc'
          · exact hall c' hc' hkey
          · rw [List.mem_singleton.mp hc'] at hkey ⊢
            have hkey : q.toText = c.key := hkey
            obtain ⟨k, hk⟩ := List.getElem?_of_mem ha
            refine ⟨k, a, hk, htext.trans hkey.symm, hd, Or.inr ?_⟩
            rw [hat]
            simpa [hkey] using hnew
        · exact hok
      · rw [List.mem_singleton.mp hc]
        trivial
  | goOn i now answer =>
    obtain ⟨c, hi, hstep⟩ := Option.bind_eq_some_iff.mp hstep
    exact h.goOn hi hprompt hstep

/-- A lookup is made of a reference that clashes with none that was looked up. -/
def apart (s : DefinitionCache δ) : LookupChoice δ → Bool
  | .lookup q _ => s.calls.all (fun c => !decide (q.Clashes c.qualifier))
  | .goOn .. => true

def qualifiers (s : DefinitionCache δ) : List Qualifier := s.calls.map (·.qualifier)

theorem qualifiers_stages {share : LookupCall δ → LookupCall δ}
    (hsame : ∀ c', (share c').qualifier = c'.qualifier) (hi : s.calls[i]? = some c) :
    ((s.calls.map share).set i { c with stage := stage }).map (·.qualifier) = s.qualifiers := by
  have hmap : (s.calls.map share).map (·.qualifier) = s.qualifiers := by
    rw [List.map_map]
    exact List.map_congr_left (fun c' _ => hsame c')
  have hat : s.qualifiers[i]? = some c.qualifier := by
    unfold qualifiers
    rw [List.getElem?_map, hi]
    rfl
  obtain ⟨hlt, hget⟩ := List.getElem?_eq_some_iff.mp hat
  rw [List.map_set, hmap]
  change s.qualifiers.set i c.qualifier = s.qualifiers
  rw [← hget, List.set_getElem_self hlt]

theorem qualifiers_goTo (hi : s.calls[i]? = some c) (stage : LookupStage δ) :
    (s.goTo i c stage).qualifiers = s.qualifiers := by
  have hsame : ∀ c' : LookupCall δ, (id c').qualifier = c'.qualifier := fun _ => rfl
  have hstages : ((s.calls.map id).set i { c with stage := stage }).map (·.qualifier) = s.qualifiers :=
    qualifiers_stages hsame hi
  rw [List.map_id] at hstages
  exact hstages

theorem qualifiers_land (hi : s.calls[i]? = some c) (found : Found δ) : (s.land i c found).qualifiers = s.qualifiers := by
  refine qualifiers_stages (fun c' => ?_) hi
  split
  · rfl
  · rfl

theorem qualifiers_goOn (hi : s.calls[i]? = some c) (hstep : s.goOn i c now answer = some s') :
    s'.qualifiers = s.qualifiers := by
  unfold DefinitionCache.goOn at hstep
  split at hstep
  · split at hstep
    · cases hstep
      exact qualifiers_goTo hi _
    · cases hstep
      exact qualifiers_goTo hi _
  · cases hstep
    exact qualifiers_goTo hi _
  · cases hstep
    exact qualifiers_goTo hi _
  · split at hstep
    · cases hstep
      exact qualifiers_land hi _
    · cases hstep
      exact qualifiers_goTo hi _
  · split at hstep
    · cases hstep
      exact qualifiers_goTo hi _
    · cases hstep
      exact qualifiers_land hi _
  · cases hstep
    exact qualifiers_land hi _
  · cases hstep
  · cases hstep

/-- The references that were looked up clash with none of each other. -/
def Apart (s : DefinitionCache δ) : Prop := ∀ q ∈ s.qualifiers, ∀ q' ∈ s.qualifiers, ¬ q.Clashes q'

theorem Apart.step (h : s.Apart) {choice : LookupChoice δ} (hapart : s.apart choice = true)
    (hstep : s.step choice = some s') : s'.Apart := by
  cases choice with
  | lookup q now =>
    cases hstep
    have hnew : ∀ q' ∈ s.qualifiers, ¬ q.Clashes q' := by
      intro q' hq'
      obtain ⟨c, hc, rfl⟩ := List.mem_map.mp hq'
      simpa using List.all_eq_true.mp hapart c hc
    have hself : ¬ q.Clashes q := by
      rintro (⟨hv, hv', -⟩ | ⟨hv, hv', -⟩)
      · exact hv' hv
      · exact hv' hv
    have hmem : ∀ q' ∈ qualifiers { s with calls := s.calls ++ [⟨q, now, s.answers.length, .called⟩] },
        q' ∈ s.qualifiers ∨ q' = q := by
      intro q' hq'
      unfold qualifiers at hq'
      rw [List.map_append, List.mem_append] at hq'
      exact hq'.imp id List.mem_singleton.mp
    intro q1 h1 q2 h2
    rcases hmem q1 h1 with hold | he
    · rcases hmem q2 h2 with hold' | he'
      · exact h q1 hold q2 hold'
      · exact fun hc => hnew q1 hold (he' ▸ hc.symm)
    · rw [he]
      rcases hmem q2 h2 with hold' | he'
      · exact hnew q2 hold'
      · rw [he']
        exact hself
  | goOn i now answer =>
    obtain ⟨c, hi, hstep⟩ := Option.bind_eq_some_iff.mp hstep
    unfold Apart
    rw [qualifiers_goOn hi hstep]
    exact h

end DefinitionCache

end Wrkflw
