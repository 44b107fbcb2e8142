import Wrkflw.Runtime.Store
import Mathlib.Logic.Relation
import Mathlib.Data.Finset.Card

/-!
# Cancelling a tree of calls

`CancelInstance` and `propagateCancel` (`runtime/processdriver_cancel.go`): the instance is cancelled, then its running
children, each with its own children, over a set of instances that were visited. No other delivery runs meanwhile, so the
links change only by the cancels: a child that ends marks its link.

The recursion has a fuel; `CancelRun.unvisited` bounds how deep it can go.
-/

namespace Wrkflw

/-- What a delivered cancel comes to. -/
inductive CancelAnswer where
  /-- The instance ended. -/
  | ended
  /-- It goes on for now, with a walk or a cancel that is pending. -/
  | goesOn
  /-- `ErrCancelNotApplicable`. -/
  | dropped
  | failed
  deriving DecidableEq, Repr

/-- What the stores, the registry and the instances answer during a cancel. -/
structure CancelWorld where
  loads : String → Bool
  lookups : String → Bool
  answer : String → CancelAnswer
  outcome : String → CallOutcome

/-- The state of a cancel: the links, `visited`, and the instances a cancel was delivered to, the last one first. -/
structure CancelRun where
  links : MemCallLinks
  visited : List String
  delivered : List String

/-- A cancel is delivered to the instance. -/
def CancelRun.deliver (w : CancelWorld) (s : CancelRun) (id : String) : CancelRun :=
  { s with
    links := if w.answer id = .ended then s.links.markTerminal id (w.outcome id) else s.links
    delivered := id :: s.delivered }

/-- The loop of `propagateCancel` over the children it listed. -/
def cancelChildren (w : CancelWorld) (propagate : CancelRun → String → Option CancelRun) :
    List CallLink → CancelRun → Option CancelRun
  | [], s => some s
  | child :: children, s =>
    let id := child.childInstanceID
    if s.visited.contains id then cancelChildren w propagate children s
    else
      let s1 := { s with visited := id :: s.visited }
      if !w.loads id || !w.lookups id then cancelChildren w propagate children s1
      else
        let s2 := s1.deliver w id
        if w.answer id = .failed then cancelChildren w propagate children s2
        else match propagate s2 id with
          | none => none
          | some s3 => cancelChildren w propagate children s3

def propagateCancel (w : CancelWorld) : Nat → CancelRun → String → Option CancelRun
  | 0, _, _ => none
  | fuel + 1, s, parentID => cancelChildren w (propagateCancel w fuel) (s.links.listRunningChildren parentID) s

/-- `CancelInstance`, with the links and the definitions it needs. -/
def cancelInstance (w : CancelWorld) (fuel : Nat) (links : MemCallLinks) (instanceID : String) : Option CancelRun :=
  let s := CancelRun.deliver w ⟨links, [], []⟩ instanceID
  if w.answer instanceID = .failed then some s
  else propagateCancel w fuel { s with visited := [instanceID] } instanceID

/-! ## What the cancel walks over -/

/-- The child of a link. -/
def Calls (links : MemCallLinks) (p c : String) : Prop :=
  ∃ l ∈ links, l.link.parentInstanceID = p ∧ l.link.childInstanceID = c

/-- The child of a running link. -/
def CallsRunning (links : MemCallLinks) (p c : String) : Prop :=
  ∃ l ∈ links, l.terminal = false ∧ l.link.parentInstanceID = p ∧ l.link.childInstanceID = c

section Walk
variable {w : CancelWorld} {links : MemCallLinks}

theorem mem_listRunningChildren {p c : String} :
    (∃ l ∈ links.listRunningChildren p, l.childInstanceID = c) ↔ CallsRunning links p c := by
  unfold MemCallLinks.listRunningChildren CallsRunning
  constructor
  · rintro ⟨l, hl, rfl⟩
    rw [List.mem_insertionSort] at hl
    obtain ⟨m, hm, rfl⟩ := List.mem_map.mp hl
    obtain ⟨hmem, hp⟩ := List.mem_filter.mp hm
    rw [Bool.and_eq_true, Bool.not_eq_true', beq_iff_eq] at hp
    exact ⟨m, hmem, hp.1, hp.2, rfl⟩
  · rintro ⟨m, hm, hrun, hp, rfl⟩
    refine ⟨m.link, ?_, rfl⟩
    rw [List.mem_insertionSort]
    refine List.mem_map.mpr ⟨m, List.mem_filter.mpr ⟨hm, ?_⟩, rfl⟩
    rw [hrun, hp]
    simp

/-- The links a cancel has changed are those of instances it visited. -/
structure CancelRun.Follows (links : MemCallLinks) (s : CancelRun) : Prop where
  sound : ∀ p c, CallsRunning s.links p c → CallsRunning links p c
  complete : ∀ p c, CallsRunning links p c → CallsRunning s.links p c ∨ c ∈ s.visited
  delivered : s.delivered = s.visited
  nodup : s.visited.Nodup

/-- The children of links that were not visited. -/
def CancelRun.unvisited (links : MemCallLinks) (s : CancelRun) : Finset String :=
  (links.map (·.link.childInstanceID)).toFinset \ s.visited.toFinset

theorem callsRunning_markTerminal {id : String} {out : CallOutcome} {p c : String} :
    CallsRunning (links.markTerminal id out) p c ↔ CallsRunning links p c ∧ c ≠ id := by
  unfold CallsRunning MemCallLinks.markTerminal
  constructor
  · rintro ⟨l, hl, hrun, hp, hc⟩
    obtain ⟨l0, hl0, rfl⟩ := List.mem_map.mp hl
    by_cases he : l0.link.childInstanceID = id
    · rw [if_pos (by simpa using he)] at hrun
      cases hrun
    · rw [if_neg (by simpa using he)] at hrun hp hc
      exact ⟨⟨l0, hl0, hrun, hp, hc⟩, fun hid => he (hc.trans hid)⟩
  · rintro ⟨⟨l0, hl0, hrun, hp, hc⟩, hne⟩
    refine ⟨l0, List.mem_map.mpr ⟨l0, hl0, ?_⟩, hrun, hp, hc⟩
    rw [if_neg]
    simpa [hc] using hne

/-- A cancel is delivered to an instance that was not visited. -/
theorem CancelRun.Follows.visit {s : CancelRun} (h : s.Follows links) {id : String} (hid : id ∉ s.visited) :
    (({ s with visited := id :: s.visited } : CancelRun).deliver w id).Follows links := by
  refine ⟨fun p c hc => ?_, fun p c hc => ?_, ?_, List.nodup_cons.mpr ⟨hid, h.nodup⟩⟩
  · refine h.sound p c ?_
    change CallsRunning (if w.answer id = .ended then s.links.markTerminal id (w.outcome id) else s.links) p c at hc
    split at hc
    · exact (callsRunning_markTerminal.mp hc).1
    · exact hc
  · change CallsRunning (if w.answer id = .ended then s.links.markTerminal id (w.outcome id) else s.links) p c ∨
      c ∈ id :: s.visited
    rcases h.complete p c hc with hrun | hin
    · by_cases he : c = id
      · exact Or.inr (he ▸ List.mem_cons_self)
      · refine Or.inl ?_
        split
        · exact callsRunning_markTerminal.mpr ⟨hrun, he⟩
        · exact hrun
    · exact Or.inr (List.mem_cons_of_mem _ hin)
  · change id :: s.delivered = id :: s.visited
    rw [h.delivered]

/-- What a cancel that went over the children of `p` has done: it visited their trees, and left no child of a visited
instance out. -/
structure CancelRun.Covers (links : MemCallLinks) (p : String) (s s' : CancelRun) : Prop where
  follows : s'.Follows links
  grows : s.visited ⊆ s'.visited
  reached : ∀ id ∈ s'.visited, id ∈ s.visited ∨ Relation.TransGen (CallsRunning links) p id
  closed : ∀ id ∈ s'.visited, id ∉ s.visited → ∀ c, CallsRunning links id c → c ∈ s'.visited

theorem CancelRun.Covers.refl {s : CancelRun} (h : s.Follows links) (p : String) : s.Covers links p s where
  follows := h
  grows := List.Subset.refl _
  reached := fun _ hid => Or.inl hid
  closed := fun _ hid hnot => absurd hid hnot

/-- A child and its tree, then the other children. -/
theorem CancelRun.Covers.next {s s3 s' : CancelRun} {p id : String} (hcall : CallsRunning links p id)
    (hchild : (({ s with visited := id :: s.visited } : CancelRun).deliver w id).Covers links id s3)
    (hall : ∀ c, CallsRunning links id c → c ∈ s3.visited) (hrest : s3.Covers links p s') : s.Covers links p s' where
  follows := hrest.follows
  grows := fun x hx => hrest.grows (hchild.grows (List.mem_cons_of_mem _ hx))
  reached := by
    intro x hx
    rcases hrest.reached x hx with hx | hx
    · rcases hchild.reached x hx with hx | hx
      · rcases List.mem_cons.mp hx with rfl | hx
        · exact Or.inr (.single hcall)
        · exact Or.inl hx
      · exact Or.inr (.head hcall hx)
    · exact Or.inr hx
  closed := by
    intro x hx hnot c hc
    by_cases hx3 : x ∈ s3.visited
    · refine hrest.grows ?_
      by_cases hx2 : x = id
      · exact hall c (hx2 ▸ hc)
      · exact hchild.closed x hx3 (fun hin => ((List.mem_cons.mp hin).elim hx2 hnot)) c hc
    · exact hrest.closed x hx hx3 c hc

theorem unvisited_mono {s s' : CancelRun} (h : s.visited ⊆ s'.visited) :
    (s'.unvisited links).card ≤ (s.unvisited links).card := by
  refine Finset.card_le_card (Finset.sdiff_subset_sdiff (Finset.Subset.refl _) ?_)
  intro x hx
  rw [List.mem_toFinset] at hx ⊢
  exact h hx

/-- One instance less is left when a child of a link is visited. -/
theorem unvisited_visit {s : CancelRun} {id p : String} (hcall : CallsRunning links p id) (hid : id ∉ s.visited) :
    ((({ s with visited := id :: s.visited } : CancelRun).deliver w id).unvisited links).card <
      (s.unvisited links).card := by
  obtain ⟨l, hl, -, -, rfl⟩ := hcall
  refine Finset.card_lt_card (Finset.ssubset_iff_subset_ne.mpr ⟨?_, fun he => ?_⟩)
  · refine Finset.sdiff_subset_sdiff (Finset.Subset.refl _) (fun x hx => ?_)
    rw [List.mem_toFinset] at hx ⊢
    exact List.mem_cons_of_mem _ hx
  · have hin : l.link.childInstanceID ∈ s.unvisited links := by
      unfold CancelRun.unvisited
      rw [Finset.mem_sdiff, List.mem_toFinset, List.mem_toFinset]
      exact ⟨List.mem_map.mpr ⟨l, hl, rfl⟩, hid⟩
    rw [← he] at hin
    unfold CancelRun.unvisited at hin
    rw [Finset.mem_sdiff, List.mem_toFinset, List.mem_toFinset] at hin
    exact hin.2 List.mem_cons_self

/-- Nothing is left out of the children that are still to do. -/
theorem cancelChildren_covers {propagate : CancelRun → String → Option CancelRun} {p : String} {bound : Nat}
    (hok : ∀ id, w.loads id = true ∧ w.lookups id = true ∧ w.answer id ≠ .failed)
    (hpropagate : ∀ s id, s.Follows links → (s.unvisited links).card < bound → ∃ s', propagate s id = some s' ∧
      s.Covers links id s' ∧ ∀ c, CallsRunning links id c → c ∈ s'.visited)
    (children : List CallLink) (hchildren : ∀ child ∈ children, CallsRunning links p child.childInstanceID) (s : CancelRun)
    (hs : s.Follows links) (hbound : (s.unvisited links).card ≤ bound) :
    ∃ s', cancelChildren w propagate children s = some s' ∧ s.Covers links p s' ∧
      ∀ child ∈ children, child.childInstanceID ∈ s'.visited := by
  induction children generalizing s with
  | nil => exact ⟨s, rfl, .refl hs p, fun _ h => nomatch h⟩
  | cons child children ih =>
    have hcall := hchildren child List.mem_cons_self
    have hrest : ∀ c ∈ children, CallsRunning links p c.childInstanceID := fun c hc =>
      hchildren c (List.mem_cons_of_mem _ hc)
    unfold cancelChildren
    dsimp only
    by_cases hid : child.childInstanceID ∈ s.visited
    · rw [if_pos (List.contains_iff_mem.mpr hid)]
      obtain ⟨s', hs', hcovers, hall⟩ := ih hrest s hs hbound
      refine ⟨s', hs', hcovers, fun c hc => ?_⟩
      rcases List.mem_cons.mp hc with rfl | hc
      · exact hcovers.grows hid
      · exact hall c hc
    · obtain ⟨hload, hlookup, hanswer⟩ := hok child.childInstanceID
      rw [if_neg (fun hc => hid (List.contains_iff_mem.mp hc)), hload, hlookup, if_neg (by simp), if_neg hanswer]
      have hvisit := hs.visit (w := w) hid
      have hless := unvisited_visit (w := w) hcall hid
      obtain ⟨s3, hs3, hcovers3, hall3⟩ := hpropagate _ child.childInstanceID hvisit (lt_of_lt_of_le hless hbound)
      rw [hs3]
      obtain ⟨s', hs', hcovers, hall⟩ := ih hrest s3 hcovers3.follows
        ((unvisited_mono hcovers3.grows).trans (hless.le.trans hbound))
      refine ⟨s', hs', hcovers3.next hcall hall3 hcovers, fun c hc => ?_⟩
      rcases List.mem_cons.mp hc with rfl | hc
      · exact hcovers.grows (hcovers3.grows List.mem_cons_self)
      · exact hall c hc

/-- Enough fuel covers the tree of the running links. -/
theorem propagateCancel_covers (hok : ∀ id, w.loads id = true ∧ w.lookups id = true ∧ w.answer id ≠ .failed) (fuel : Nat) :
    ∀ s id, s.Follows links → (s.unvisited links).card < fuel → ∃ s', propagateCancel w fuel s id = some s' ∧
      s.Covers links id s' ∧ ∀ c, CallsRunning links id c → c ∈ s'.visited := by
  induction fuel with
  | zero => exact fun _ _ _ h => absurd h (Nat.not_lt_zero _)
  | succ fuel ih =>
    intro s id hs hfuel
    unfold propagateCancel
    obtain ⟨s', hs', hcovers, hall⟩ := cancelChildren_covers (p := id) hok ih (s.links.listRunningChildren id)
      (fun child hc => hs.sound _ _ (mem_listRunningChildren.mp ⟨child, hc, rfl⟩)) s hs (Nat.lt_succ_iff.mp hfuel)
    refine ⟨s', hs', hcovers, fun c hc => ?_⟩
    rcases hs.complete _ _ hc with hrun | hin
    · obtain ⟨child, hchild, rfl⟩ := mem_listRunningChildren.mpr hrun
      exact hall child hchild
    · exact hcovers.grows hin

/-- A cancel that meets no error is delivered to the instance and to what running links lead to, once each. -/
theorem cancelInstance_delivers (hok : ∀ id, w.loads id = true ∧ w.lookups id = true ∧ w.answer id ≠ .failed)
    (root : String) {fuel : Nat} (hfuel : links.length < fuel) : ∃ s, cancelInstance w fuel links root = some s ∧
      s.delivered.Nodup ∧ ∀ id, id ∈ s.delivered ↔ Relation.ReflTransGen (CallsRunning links) root id := by
  have hblank : (⟨links, [], []⟩ : CancelRun).Follows links :=
    ⟨fun _ _ h => h, fun _ _ h => Or.inl h, rfl, List.nodup_nil⟩
  have hroot := hblank.visit (w := w) (List.not_mem_nil (a := root))
  have hcard :
      ((({ (⟨links, [], []⟩ : CancelRun) with visited := [root] } : CancelRun).deliver w root).unvisited links).card <
        fuel := by
    refine lt_of_le_of_lt (Finset.card_le_card Finset.sdiff_subset) (lt_of_le_of_lt (List.toFinset_card_le _) ?_)
    rw [List.length_map]
    exact hfuel
  obtain ⟨s, hs, hcovers, hall⟩ := propagateCancel_covers hok fuel _ root hroot hcard
  have heq : cancelInstance w fuel links root = some s := by
    unfold cancelInstance
    rw [if_neg (hok root).2.2]
    exact hs
  have hin : root ∈ s.visited := hcovers.grows List.mem_cons_self
  have hclosed : ∀ id ∈ s.visited, ∀ c, CallsRunning links id c → c ∈ s.visited := by
    intro id hid c hc
    by_cases he : id = root
    · exact hall c (he ▸ hc)
    · refine hcovers.closed id hid (fun hmem => ?_) c hc
      exact he (List.mem_singleton.mp hmem)
  refine ⟨s, heq, hcovers.follows.delivered ▸ hcovers.follows.nodup, fun id => ?_⟩
  rw [hcovers.follows.delivered]
  constructor
  · intro hid
    rcases hcovers.reached id hid with hmem | htrans
    · rw [List.mem_singleton.mp hmem]
    · exact htrans.to_reflTransGen
  · intro hpath
    induction hpath with
    | refl => exact hin
    | tail _ hcall ih => exact hclosed _ ih _ hcall

end Walk

end Wrkflw
