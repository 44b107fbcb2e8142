import Wrkflw.Library.Pool
import Wrkflw.Runtime.Shutdown

/-!
# Nothing runs behind a drained gate

`Gate.Sound` : the slots are counted, the two locks exclude each other, and behind the set flag no entry point is
about to take a slot. `drained_for_good` : from the moment a `Shutdown` call returns without a timeout, nothing is in
flight any more.
-/

namespace Wrkflw

open Library

namespace Gate

structure Sound (g : Gate) : Prop where
  counts : g.inflight = g.entries.countP EntryCall.inFlight
  /-- The write lock is held alone. -/
  excludes : ∀ s ∈ g.stops, s.locks = true → ∀ e ∈ g.entries, e.locks = false
  past : ∀ s ∈ g.stops, s.past = true → g.draining = true
  shut : g.draining = true → ∀ e ∈ g.entries, e ≠ .clear
  drained : Stop.drained ∈ g.stops → ∀ e ∈ g.entries, e.inFlight = false

variable {g g' : Gate} {i : Nat} {e : EntryCall} {s : Stop}

theorem countP_set {p : EntryCall → Bool} (h : g.entries[i]? = some e) (e' : EntryCall) :
    (g.entries.set i e').countP p + (if p e then 1 else 0) = g.entries.countP p + (if p e' then 1 else 0) := by
  obtain ⟨before, after, hl, hset, -⟩ := split_of_getElem? h
  rw [hset, hl]
  simp only [List.countP_append, List.countP_cons]
  omega

namespace Sound

/-- An entry point goes on, with its slot as before. -/
theorem entry (h : g.Sound) (he : g.entries[i]? = some e) (e' : EntryCall) {n : Nat}
    (hn : n + (if e.inFlight then 1 else 0) = g.inflight + (if e'.inFlight then 1 else 0))
    (hlocks : e'.locks = true → e.locks = true ∨ g.stops.any Stop.locks = false)
    (hclear : g.draining = true → e' ≠ .clear) (hflight : e'.inFlight = true → e.inFlight = true ∨ e = .clear) :
    Sound { g with inflight := n, entries := g.entries.set i e' } where
  counts := by
    have hcount := countP_set (p := EntryCall.inFlight) he e'
    have hwas := h.counts
    dsimp only
    omega
  excludes := by
    intro s hs hlock
    refine forall_mem_set (P := fun e : EntryCall => e.locks = false) (h.excludes s hs hlock) ?_
    by_contra htrue
    rw [Bool.not_eq_false] at htrue
    rcases hlocks htrue with hold | hnone
    · rw [h.excludes s hs hlock e (List.mem_of_getElem? he)] at hold
      cases hold
    · rw [List.any_eq_false] at hnone
      exact hnone s hs hlock
  past := h.past
  shut := fun hd => forall_mem_set (P := fun e : EntryCall => e ≠ .clear) (h.shut hd) (hclear hd)
  drained := by
    intro hd
    refine forall_mem_set (P := fun e : EntryCall => e.inFlight = false) (h.drained hd) ?_
    by_contra htrue
    rw [Bool.not_eq_false] at htrue
    have hmem : e ∈ g.entries := List.mem_of_getElem? he
    rcases hflight htrue with hold | hclr
    · rw [h.drained hd e hmem] at hold
      cases hold
    · exact h.shut (h.past .drained hd rfl) e hmem hclr

/-- A `Shutdown` call goes on. -/
theorem shutdown (h : g.Sound) (s' : Stop) (hlocks : s'.locks = true → ∀ e ∈ g.entries, e.locks = false) {d : Bool}
    (hd : g.draining = true → d = true) (hpast : s'.past = true → d = true)
    (hshut : d = true → ∀ e ∈ g.entries, e ≠ .clear) (hdrained : s' = .drained → ∀ e ∈ g.entries, e.inFlight = false) :
    Sound { g with draining := d, stops := g.stops.set i s' } where
  counts := h.counts
  excludes := forall_mem_set (P := fun s : Stop => s.locks = true → ∀ e ∈ g.entries, e.locks = false) h.excludes hlocks
  past := forall_mem_set (P := fun s : Stop => s.past = true → d = true) (fun s hs hp => hd (h.past s hs hp)) hpast
  shut := hshut
  drained := by
    intro hmem
    rcases List.mem_or_eq_of_mem_set hmem with hmem | heq
    · exact h.drained hmem
    · exact hdrained heq.symm

theorem step (h : g.Sound) {a : GateStep} (hstep : g.step a = some g') : g'.Sound := by
  cases a with
  | enter =>
    cases hstep
    refine ⟨?_, ?_, h.past, ?_, ?_⟩
    · rw [List.countP_append, ← h.counts]
      rfl
    · exact fun s hs hlock => forall_mem_concat (P := fun e : EntryCall => e.locks = false) (h.excludes s hs hlock) rfl
    · exact fun hd => forall_mem_concat (P := fun e : EntryCall => e ≠ .clear) (h.shut hd) (fun hc => by cases hc)
    · exact fun hd => forall_mem_concat (P := fun e : EntryCall => e.inFlight = false) (h.drained hd) rfl
  | stop =>
    cases hstep
    refine ⟨h.counts, ?_, ?_, h.shut, ?_⟩
    · exact forall_mem_concat h.excludes (fun hlock => by cases hlock)
    · exact forall_mem_concat h.past (fun hpast => by cases hpast)
    · intro hd
      rcases List.mem_append.mp hd with hd | hd
      · exact h.drained hd
      · cases List.mem_singleton.mp hd
  | entry i =>
    obtain ⟨e, he, hstep⟩ := Option.bind_eq_some_iff.mp hstep
    cases e with
    | called =>
      unfold Gate.entry at hstep
      dsimp only at hstep
      split at hstep
      · cases hstep
      · rename_i hfree
        cases hstep
        exact h.entry he .reading rfl (fun _ => .inr (Bool.eq_false_iff.mpr hfree)) (fun _ hc => by cases hc)
          (fun hf => by cases hf)
    | reading =>
      cases hstep
      by_cases hd : g.draining = true
      · rw [if_pos hd]
        exact h.entry he .refusing rfl (fun _ => .inl rfl) (fun _ hc => by cases hc) (fun hf => by cases hf)
      · rw [if_neg hd]
        exact h.entry he .clear rfl (fun _ => .inl rfl) (fun hd' => absurd hd' hd) (fun hf => by cases hf)
    | clear =>
      cases hstep
      exact h.entry he .counted rfl (fun _ => .inl rfl) (fun _ hc => by cases hc) (fun _ => .inr rfl)
    | counted =>
      cases hstep
      exact h.entry he .working rfl (fun hl => by cases hl) (fun _ hc => by cases hc) (fun _ => .inl rfl)
    | refusing =>
      cases hstep
      exact h.entry he .refused rfl (fun hl => by cases hl) (fun _ hc => by cases hc) (fun hf => by cases hf)
    | working =>
      cases hstep
      have hpos : 0 < g.entries.countP EntryCall.inFlight :=
        List.countP_pos_iff.mpr ⟨.working, List.mem_of_getElem? he, rfl⟩
      have hn : g.inflight - 1 + 1 = g.inflight := Nat.succ_pred_eq_of_pos (h.counts ▸ hpos)
      exact h.entry he .returned hn (fun hl => by cases hl) (fun _ hc => by cases hc) (fun hf => by cases hf)
    | refused => cases hstep
    | returned => cases hstep
  | shutdown i expired =>
    obtain ⟨s, hs, hstep⟩ := Option.bind_eq_some_iff.mp hstep
    have hmem : s ∈ g.stops := List.mem_of_getElem? hs
    cases s with
    | called =>
      unfold Gate.shutdown at hstep
      dsimp only at hstep
      split at hstep
      · cases hstep
      · rename_i hfree
        cases hstep
        rw [Bool.or_eq_true, not_or, Bool.not_eq_true, List.any_eq_false] at hfree
        exact h.shutdown .locked (fun _ e he => Bool.eq_false_iff.mpr (hfree.1 e he)) id (fun hp => by cases hp) h.shut
          (fun hd => by cases hd)
    | locked =>
      cases hstep
      -- under the write lock no entry point is between its check and its slot
      have hnone : ∀ e ∈ g.entries, e ≠ .clear := by
        rintro e he rfl
        cases h.excludes .locked hmem rfl .clear he
      exact h.shutdown .stored (fun _ => h.excludes .locked hmem rfl) (fun _ => rfl) (fun _ => rfl) (fun _ => hnone)
        (fun hd => by cases hd)
    | stored =>
      cases hstep
      exact h.shutdown .closing (fun hl => by cases hl) id (fun _ => h.past .stored hmem rfl) h.shut
        (fun hd => by cases hd)
    | closing =>
      cases hstep
      exact h.shutdown .waiting (fun hl => by cases hl) id (fun _ => h.past .closing hmem rfl) h.shut
        (fun hd => by cases hd)
    | waiting =>
      have hset := h.past .waiting hmem rfl
      unfold Gate.shutdown at hstep
      dsimp only at hstep
      split at hstep
      · cases hstep
        exact h.shutdown .timedOut (fun hl => by cases hl) id (fun _ => hset) h.shut (fun hd => by cases hd)
      · split at hstep
        · rename_i hzero
          cases hstep
          refine h.shutdown .drained (fun hl => by cases hl) id (fun _ => hset) h.shut (fun _ e he => ?_)
          have hnone := h.counts ▸ hzero
          rw [List.countP_eq_zero] at hnone
          exact Bool.eq_false_iff.mpr (hnone e he)
        · cases hstep
    | drained => cases hstep
    | timedOut => cases hstep

end Sound

theorem sound_open : Sound {} where
  counts := rfl
  excludes s hs := by cases hs
  past s hs := by cases hs
  shut hd := by cases hd
  drained hd := by cases hd

end Gate

/-- In every state: what is in flight is what was admitted and has not returned; while a `Shutdown` call waits no entry point
can take a slot; and once one has returned without a timeout nothing is in flight and nothing will be. -/
theorem drained_for_good {steps : List GateStep} {g : Gate} (h : Library.Runs Gate.step (fun _ _ => True) {} steps g) :
    g.inflight = g.entries.countP EntryCall.inFlight ∧
    ((∃ s ∈ g.stops, s = .waiting ∨ s = .drained) → EntryCall.clear ∉ g.entries) ∧
    (Stop.drained ∈ g.stops → g.inflight = 0 ∧ ∀ e ∈ g.entries, e.inFlight = false) := by
  have hs : g.Sound := h.invariant Gate.sound_open (fun hx _ hz => hx.step hz)
  refine ⟨hs.counts, ?_, fun hd => ⟨?_, hs.drained hd⟩⟩
  · rintro ⟨s, hmem, hst⟩ hclear
    have hpast : s.past = true := by
      rcases hst with rfl | rfl <;> rfl
    exact hs.shut (hs.past s hmem hpast) .clear hclear rfl
  · rw [hs.counts, List.countP_eq_zero]
    exact fun e he => Bool.eq_false_iff.mp (hs.drained hd e he)

/-- One call is admitted before the gate closes, one comes too late; the first is waited for. -/
theorem late_entry_refused : ∃ steps g, Library.Runs Gate.step (fun _ _ => True) {} steps g ∧ Stop.drained ∈ g.stops ∧
    g.entries = [.returned, .refused] ∧ g.inflight = 0 := by
  have hplay : plays Gate.step (fun _ _ => True) {}
      [.enter, .enter, .stop, .entry 0, .entry 0, .entry 0, .entry 0, .shutdown 0 false, .shutdown 0 false, .shutdown 0 false,
        .entry 1, .entry 1, .entry 1, .shutdown 0 false, .entry 0, .shutdown 0 false]
      (fun g => decide (Stop.drained ∈ g.stops ∧ g.entries = [.returned, .refused])) = true := by decide
  obtain ⟨g, hrun, hQ⟩ := runs_of_plays hplay
  obtain ⟨hd, hentries⟩ := of_decide_eq_true hQ
  exact ⟨_, g, hrun, hd, hentries, ((drained_for_good hrun).2.2 hd).1⟩

end Wrkflw
