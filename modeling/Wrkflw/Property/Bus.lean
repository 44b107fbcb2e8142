import Wrkflw.Eventing.InProcess
import Wrkflw.Library.Runs

/-!
# The in-process bus neither skips, repeats nor stalls

* `Consumer.Kept` : what was queued is what was acknowledged, then what the loop holds, then the queue;
* `BusSystem.Awake` : a loop that waits beside a queued envelope has a signal, pending or about to be offered;
* `BusSystem.Rostered` : the bus lists the subscriptions that have not ended, and has seen the topic of each one there
ever was;
* `bus_neither_skips_nor_stalls` : the three, after any interleaving.
-/

namespace Wrkflw

open Library

variable {c c' : Consumer} {closed : Bool} {i : Nat} {e : BusEvent}

/-! ## What a loop holds -/

def DeliverLoop.isGone : DeliverLoop → Bool
  | .gone => true
  | _ => false

/-- The envelopes a loop took from its queue and that are not acknowledged; after the last one it may have given one up. -/
def DeliverLoop.Holds (closed : Bool) (held : List Envelope) : DeliverLoop → Prop
  | .popping | .waiting => held = []
  | .handling env | .pausing env => held = [env]
  | .checking => held = [] ∨ closed = true
  | .leaving | .gone => True

def Consumer.Kept (closed : Bool) (c : Consumer) : Prop :=
  ∃ held, c.queued = c.acked ++ held ++ c.sub.queue ∧ c.loop.Holds closed held

theorem Consumer.Kept.close (h : c.Kept closed) : c.Kept true := by
  obtain ⟨held, hqueued, hheld⟩ := h
  refine ⟨held, hqueued, ?_⟩
  cases hloop : c.loop with
  | checking => exact .inr rfl
  | leaving => trivial
  | gone => trivial
  | popping => simpa [DeliverLoop.Holds, hloop] using hheld
  | waiting => simpa [DeliverLoop.Holds, hloop] using hheld
  | handling env => simpa [DeliverLoop.Holds, hloop] using hheld
  | pausing env => simpa [DeliverLoop.Holds, hloop] using hheld

theorem Consumer.Kept.append (h : c.Kept closed) (env : Envelope) :
    Consumer.Kept closed { c with sub := c.sub.append env, queued := c.queued ++ [env] } := by
  obtain ⟨held, hqueued, hheld⟩ := h
  refine ⟨held, ?_, hheld⟩
  simp only [Subscription.append, hqueued, List.append_assoc]

theorem Consumer.Kept.signal (h : c.Kept closed) :
    Consumer.Kept closed { c with sub := c.sub.signal } := h

theorem Consumer.Kept.cancelled (h : c.Kept closed) :
    Consumer.Kept closed { c with ctxDone := true } := h

theorem Consumer.Kept.gone (h : c.Kept closed) :
    Consumer.Kept closed { c with loop := .gone } := by
  obtain ⟨held, hqueued, -⟩ := h
  exact ⟨held, hqueued, trivial⟩

/-- What a step of a loop can do. -/
inductive Consumer.Turned (closed : Bool) (c : Consumer) : Consumer → Prop
  | wait (hloop : c.loop = .popping) (hqueue : c.sub.queue = []) : Consumer.Turned closed c { c with loop := .waiting }
  | take (hloop : c.loop = .popping) {env : Envelope} {queue : List Envelope} (hqueue : c.sub.queue = env :: queue) :
      Consumer.Turned closed c { c with loop := .handling env, sub := { c.sub with queue := queue } }
  | wake (hloop : c.loop = .waiting) (hnotify : c.sub.notify = true) :
      Consumer.Turned closed c { c with loop := .popping, sub := { c.sub with notify := false } }
  | ack {env : Envelope} (hloop : c.loop = .handling env) :
      Consumer.Turned closed c { c with loop := .checking, acked := c.acked ++ [env] }
  | nack {env : Envelope} (hloop : c.loop = .handling env) : Consumer.Turned closed c { c with loop := .pausing env }
  | retry {env : Envelope} (hloop : c.loop = .pausing env) : Consumer.Turned closed c { c with loop := .handling env }
  | giveUp {env : Envelope} (hloop : c.loop = .pausing env) (hclosed : closed = true) :
      Consumer.Turned closed c { c with loop := .checking }
  | goOn (hloop : c.loop = .checking) (hopen : closed = false) : Consumer.Turned closed c { c with loop := .popping }
  | leave (hloop : c.loop.isGone = false) : Consumer.Turned closed c { c with loop := .leaving }

theorem Consumer.turn_cases {pick : Pick} (hturn : c.turn closed pick = some c') :
    c.Turned closed c' := by
  have hleave : ∀ {loop : DeliverLoop}, c.loop = loop → loop.isGone = false →
    c.Turned closed { c with loop := .leaving } := by
    rintro loop rfl h
    exact .leave h
  cases hloop : c.loop with
  | popping =>
    cases pick with
    | run =>
      simp only [Consumer.turn, hloop, Subscription.pop] at hturn
      cases hqueue : c.sub.queue with
      | nil =>
        rw [hqueue] at hturn
        cases hturn
        exact .wait hloop hqueue
      | cons env queue =>
        rw [hqueue] at hturn
        cases hturn
        exact .take hloop hqueue
    | _ => simp [Consumer.turn, hloop] at hturn
  | waiting =>
    cases pick with
    | ctxDone =>
      simp only [Consumer.turn, hloop, Option.ite_none_right_eq_some] at hturn
      cases hturn.2
      exact hleave hloop rfl
    | done =>
      simp only [Consumer.turn, hloop, Option.ite_none_right_eq_some] at hturn
      cases hturn.2
      exact hleave hloop rfl
    | notify =>
      simp only [Consumer.turn, hloop, Option.ite_none_right_eq_some] at hturn
      cases hturn.2
      exact .wake hloop hturn.1
    | _ => simp [Consumer.turn, hloop] at hturn
  | handling env =>
    cases pick with
    | handler result =>
      cases result with
      | ack =>
        simp only [Consumer.turn, hloop] at hturn
        cases hturn
        exact .ack hloop
      | nack =>
        simp only [Consumer.turn, hloop] at hturn
        cases hturn
        exact .nack hloop
      | panics =>
        simp only [Consumer.turn, hloop] at hturn
        cases hturn
        exact hleave hloop rfl
    | _ => simp [Consumer.turn, hloop] at hturn
  | pausing env =>
    cases pick with
    | ctxDone =>
      simp only [Consumer.turn, hloop, Option.ite_none_right_eq_some] at hturn
      cases hturn.2
      exact hleave hloop rfl
    | done =>
      simp only [Consumer.turn, hloop, Option.ite_none_right_eq_some] at hturn
      cases hturn.2
      exact .giveUp hloop hturn.1
    | timer =>
      simp only [Consumer.turn, hloop] at hturn
      cases hturn
      exact .retry hloop
    | _ => simp [Consumer.turn, hloop] at hturn
  | checking =>
    cases pick with
    | run =>
      simp only [Consumer.turn, hloop] at hturn
      cases hturn
      split
      · exact hleave hloop rfl
      · rename_i hstop
        simp only [Bool.or_eq_true, not_or, Bool.not_eq_true] at hstop
        exact .goOn hloop hstop.2
    | _ => simp [Consumer.turn, hloop] at hturn
  | leaving => cases pick <;> simp [Consumer.turn, hloop] at hturn
  | gone => cases pick <;> simp [Consumer.turn, hloop] at hturn

theorem Consumer.Kept.turn (h : c.Kept closed) (hturn : c.Turned closed c') :
    c'.Kept closed := by
  obtain ⟨held, hqueued, hheld⟩ := h
  cases hturn with
  | wait hloop hqueue =>
    rw [hloop] at hheld
    exact ⟨held, hqueued, hheld⟩
  | take hloop hqueue =>
    rename_i env queue
    rw [hloop] at hheld
    change held = [] at hheld
    subst hheld
    refine ⟨[env], ?_, rfl⟩
    simp [hqueued, hqueue]
  | wake hloop _ =>
    rw [hloop] at hheld
    exact ⟨held, hqueued, hheld⟩
  | ack hloop =>
    rename_i env
    rw [hloop] at hheld
    change held = [env] at hheld
    subst hheld
    refine ⟨[], ?_, .inl rfl⟩
    simpa using hqueued
  | nack hloop =>
    rw [hloop] at hheld
    exact ⟨held, hqueued, hheld⟩
  | retry hloop =>
    rw [hloop] at hheld
    exact ⟨held, hqueued, hheld⟩
  | giveUp hloop hclosed => exact ⟨held, hqueued, .inr hclosed⟩
  | goOn hloop hopen =>
    -- an envelope is given up on a closed bus only, where the check ends the loop
    rw [hloop] at hheld
    refine ⟨held, hqueued, hheld.resolve_right ?_⟩
    rw [hopen]
    exact Bool.false_ne_true
  | leave _ => exact ⟨held, hqueued, trivial⟩

/-! ## Signals -/

/-- The call offers a signal to the subscription next. -/
def BusCall.Signals (i : Nat) : BusCall → Prop
  | .signalling _ j _ => j = i
  | _ => False

/-- A signal is pending for the loop, or is offered by a push next. -/
def BusSystem.Signalled (s : BusSystem) (i : Nat) (c : Consumer) : Prop :=
  c.sub.notify = true ∨ ∃ call ∈ s.calls, call.Signals i

def BusSystem.Awake (s : BusSystem) : Prop :=
  ∀ (i : Nat) (c : Consumer), s.consumers[i]? = some c → c.loop = .waiting → c.sub.queue ≠ [] → s.Signalled i c

theorem Consumer.Turned.waiting (hturn : c.Turned closed c') (hwaiting : c'.loop = .waiting) :
    c'.sub.queue = [] := by
  cases hturn with
  | wait _ hqueue => exact hqueue
  | _ => cases hwaiting

theorem mem_set_of_ne {α : Type} {l : List α} {k : Nat} {a b x : α} (hk : l[k]? = some a) (hx : x ∈ l) (hne : x ≠ a) :
    x ∈ l.set k b := by
  obtain ⟨j, hj⟩ := List.mem_iff_getElem?.mp hx
  refine List.mem_iff_getElem?.mpr ⟨j, ?_⟩
  have hkj : k ≠ j := by
    rintro rfl
    rw [hk] at hj
    exact hne (Option.some.inj hj).symm
  rw [List.getElem?_set_ne hkj, hj]

theorem mem_eraseIdx_of_ne {α : Type} {l : List α} {k : Nat} {a x : α} (hk : l[k]? = some a) (hx : x ∈ l) (hne : x ≠ a) :
    x ∈ l.eraseIdx k := by
  obtain ⟨j, hj⟩ := List.mem_iff_getElem?.mp hx
  refine List.mem_eraseIdx_iff_getElem?.mpr ⟨j, ?_, hj⟩
  rintro rfl
  rw [hk] at hj
  exact hne (Option.some.inj hj).symm

/-! ## What a step does to the subscriptions -/

inductive Consumer.Moves (closed : Bool) (c : Consumer) : Consumer → Prop
  | same : Consumer.Moves closed c c
  | append (env : Envelope) : Consumer.Moves closed c { c with sub := c.sub.append env, queued := c.queued ++ [env] }
  | signal : Consumer.Moves closed c { c with sub := c.sub.signal }
  | cancelled : Consumer.Moves closed c { c with ctxDone := true }
  | turn {c' : Consumer} (h : c.Turned closed c') : Consumer.Moves closed c c'
  | gone (h : c.loop = .leaving) : Consumer.Moves closed c { c with loop := .gone }

theorem Consumer.Kept.moves (h : c.Kept closed) (hmoves : c.Moves closed c') :
    c'.Kept closed := by
  cases hmoves with
  | same => exact h
  | append env => exact h.append env
  | signal => exact h.signal
  | cancelled => exact h.cancelled
  | turn hturn => exact h.turn hturn
  | gone _ => exact h.gone

theorem moves_modify {cs : List Consumer} {f : Consumer → Consumer} (hf : ∀ c, Consumer.Moves closed c (f c))
    {j : Nat} (hc : (cs.modify i f)[j]? = some c') : ∃ c, cs[j]? = some c ∧ c.Moves closed c' := by
  rw [List.getElem?_modify] at hc
  obtain ⟨c, hc, hc'⟩ := Option.map_eq_some_iff.mp hc
  refine ⟨c, hc, ?_⟩
  by_cases hij : i = j
  · rw [if_pos hij] at hc'
    exact hc' ▸ hf c
  · rw [if_neg hij] at hc'
    exact hc' ▸ .same

theorem moves_set {cs : List Consumer} {j : Nat} {c1 c2 : Consumer} (hi : cs[i]? = some c1)
    (hmoves : c1.Moves closed c2) (hc : (cs.set i c2)[j]? = some c') : ∃ c, cs[j]? = some c ∧ c.Moves closed c' := by
  by_cases hij : i = j
  · subst hij
    rw [List.getElem?_set_self (List.getElem?_eq_some_iff.mp hi).1] at hc
    exact ⟨c1, hi, Option.some.inj hc ▸ hmoves⟩
  · rw [List.getElem?_set_ne hij] at hc
    exact ⟨c', hc, .same⟩

variable {s s' : BusSystem}

theorem BusSystem.advance_moves {k : Nat} {call : BusCall}
    (hc : (s.advance k call).consumers[i]? = some c') : ∃ c, s.consumers[i]? = some c ∧ c.Moves closed c' := by
  cases call with
  | pushing env rest =>
    cases rest with
    | nil => exact ⟨c', hc, .same⟩
    | cons j rest => exact moves_modify (fun c => .append env) hc
  | signalling env j rest => exact moves_modify (fun c => .signal) hc
  | closing rest =>
    cases rest with
    | nil => exact ⟨c', hc, .same⟩
    | cons j rest => exact moves_modify (fun c => .cancelled) hc

/-- The subscription was registered by this step, or it moved. -/
theorem BusSystem.step_moves (h : s.step e = some s') (hc : s'.consumers[i]? = some c') :
    (∃ topic start, c' = { topic := topic, sub := { cancel := start } }) ∨
      ∃ c, s.consumers[i]? = some c ∧ c.Moves s.bus.closed c' := by
  cases e with
  | publish p ev =>
    simp only [BusSystem.step] at h
    split at h <;> cases h <;> exact .inr ⟨c', hc, .same⟩
  | subscribe topic start =>
    simp only [BusSystem.step] at h
    split at h <;> cases h
    · exact .inr ⟨c', hc, .same⟩
    · rw [List.getElem?_append] at hc
      split at hc
      · exact .inr ⟨c', hc, .same⟩
      · exact .inl ⟨topic, start, List.mem_singleton.mp (List.mem_of_getElem? hc)⟩
  | cancel j =>
    cases h
    exact .inr (moves_modify (fun c => .cancelled) hc)
  | close =>
    simp only [BusSystem.step] at h
    split at h <;> cases h <;> exact .inr ⟨c', hc, .same⟩
  | call k =>
    simp only [BusSystem.step] at h
    split at h <;> cases h
    exact .inr (advance_moves hc)
  | turn j pick =>
    simp only [BusSystem.step] at h
    split at h
    · cases h
    · rename_i c hj
      split at h
      · rename_i hloop
        cases h
        exact .inr (moves_set hj (.gone hloop) hc)
      · split at h <;> cases h
        rename_i hturn
        exact .inr (moves_set hj (.turn (Consumer.turn_cases hturn)) hc)

theorem BusSystem.advance_bus (k : Nat) (call : BusCall) : (s.advance k call).bus = s.bus := by
  cases call with
  | pushing env rest => cases rest <;> rfl
  | signalling env j rest => rfl
  | closing rest => cases rest <;> rfl

theorem BusSystem.step_bus (h : s.step e = some s') :
    (s'.bus.closed = s.bus.closed ∨ s'.bus.closed = true) ∧ s'.bus.requireSubTopics = s.bus.requireSubTopics := by
  cases e with
  | publish p ev =>
    simp only [BusSystem.step] at h
    split at h <;> cases h <;> exact ⟨.inl rfl, rfl⟩
  | subscribe topic start =>
    simp only [BusSystem.step, InProcess.register] at h
    by_cases hclosed : s.bus.closed = true
    · rw [if_pos hclosed] at h
      cases h
      exact ⟨.inl rfl, rfl⟩
    · rw [if_neg hclosed] at h
      cases h
      exact ⟨.inl rfl, rfl⟩
  | cancel j =>
    cases h
    exact ⟨.inl rfl, rfl⟩
  | close =>
    simp only [BusSystem.step] at h
    split at h <;> cases h
    · exact ⟨.inl rfl, rfl⟩
    · exact ⟨.inr rfl, rfl⟩
  | call k =>
    simp only [BusSystem.step] at h
    split at h <;> cases h
    rw [advance_bus]
    exact ⟨.inl rfl, rfl⟩
  | turn j pick =>
    simp only [BusSystem.step] at h
    split at h
    · cases h
    · split at h
      · cases h
        exact ⟨.inl rfl, rfl⟩
      · split at h <;> cases h
        exact ⟨.inl rfl, rfl⟩

def BusSystem.Kept (s : BusSystem) : Prop := ∀ (i : Nat) (c : Consumer), s.consumers[i]? = some c → c.Kept s.bus.closed

theorem BusSystem.Kept.step (hs : s.Kept) (h : s.step e = some s') : s'.Kept := by
  intro i c' hc
  obtain ⟨topic, start, rfl⟩ | ⟨c, hi, hmoves⟩ := step_moves h hc
  · exact ⟨[], rfl, rfl⟩
  · have hkept := (hs i c hi).moves hmoves
    obtain hclosed | hclosed := (step_bus h).1
    · exact hclosed ▸ hkept
    · exact hclosed ▸ hkept.close

/-! ## No wake-up is lost -/

theorem BusSystem.Signalled.of_calls (h : s.Signalled i c) (hcalls : s.calls ⊆ s'.calls) :
    s'.Signalled i c := by
  obtain hnotify | ⟨call, hcall, hi⟩ := h
  · exact .inl hnotify
  · exact .inr ⟨call, hcalls hcall, hi⟩

/-- A step that keeps the calls and gives no queue an envelope keeps every loop awake. -/
theorem BusSystem.Awake.of_moves (hs : s.Awake) (hcalls : s.calls ⊆ s'.calls)
    (hmoves : ∀ (i : Nat) (c' : Consumer), s'.consumers[i]? = some c' → c'.loop = .waiting → c'.sub.queue ≠ [] →
      ∃ c : Consumer, s.consumers[i]? = some c ∧ c.loop = .waiting ∧ c.sub = c'.sub) : s'.Awake := by
  intro i c' hc hwaiting hqueue
  obtain ⟨c, hi, hloop, hsub⟩ := hmoves i c' hc hwaiting hqueue
  have hsignal := (hs i c hi hloop (hsub ▸ hqueue)).of_calls hcalls
  simpa only [Signalled, hsub] using hsignal

theorem BusSystem.Awake.advance {k : Nat} {call : BusCall} (hs : s.Awake) (hk : s.calls[k]? = some call) :
    (s.advance k call).Awake := by
  intro i c' hc hwaiting hqueue
  cases call with
  | pushing env rest =>
    cases rest with
    | nil =>
      obtain hnotify | ⟨call, hcall, hi⟩ := hs i c' hc hwaiting hqueue
      · exact .inl hnotify
      · refine .inr ⟨call, mem_eraseIdx_of_ne hk hcall ?_, hi⟩
        rintro rfl
        exact hi
    | cons j rest =>
      have hlt : k < s.calls.length := (List.getElem?_eq_some_iff.mp hk).1
      by_cases hji : j = i
      · exact .inr ⟨_, List.mem_set hlt _, hji⟩
      · simp only [BusSystem.advance, List.getElem?_modify_ne _ _ hji] at hc
        obtain hnotify | ⟨call, hcall, hi⟩ := hs i c' hc hwaiting hqueue
        · exact .inl hnotify
        · refine .inr ⟨call, mem_set_of_ne hk hcall ?_, hi⟩
          rintro rfl
          exact hi
  | signalling env j rest =>
    by_cases hji : j = i
    · subst hji
      simp only [BusSystem.advance, List.getElem?_modify_eq] at hc
      obtain ⟨c, -, rfl⟩ := Option.map_eq_some_iff.mp hc
      exact .inl rfl
    · simp only [BusSystem.advance, List.getElem?_modify_ne _ _ hji] at hc
      obtain hnotify | ⟨call, hcall, hi⟩ := hs i c' hc hwaiting hqueue
      · exact .inl hnotify
      · refine .inr ⟨call, mem_set_of_ne hk hcall ?_, hi⟩
        rintro rfl
        exact hji hi
  | closing rest =>
    cases rest with
    | nil =>
      obtain hnotify | ⟨call, hcall, hi⟩ := hs i c' hc hwaiting hqueue
      · exact .inl hnotify
      · refine .inr ⟨call, mem_eraseIdx_of_ne hk hcall ?_, hi⟩
        rintro rfl
        exact hi
    | cons j rest =>
      simp only [BusSystem.advance, List.getElem?_modify] at hc
      obtain ⟨c, hi, rfl⟩ := Option.map_eq_some_iff.mp hc
      have hsame : ∀ c : Consumer, (if j = i then { c with ctxDone := true } else c : Consumer).sub = c.sub ∧
          (if j = i then { c with ctxDone := true } else c : Consumer).loop = c.loop := by
        intro c
        split <;> exact ⟨rfl, rfl⟩
      simp only [hsame] at hwaiting hqueue
      obtain hnotify | ⟨call, hcall, hsig⟩ := hs i c hi hwaiting hqueue
      · exact .inl (by simpa only [hsame] using hnotify)
      · refine .inr ⟨call, mem_set_of_ne hk hcall ?_, hsig⟩
        rintro rfl
        exact hsig

theorem BusSystem.Awake.step (hs : s.Awake) (h : s.step e = some s') : s'.Awake := by
  cases e with
  | publish p ev =>
    simp only [BusSystem.step] at h
    split at h <;> cases h
    · exact hs
    · exact hs.of_moves (List.subset_append_left _ _) (fun i c' hc hwaiting _ => ⟨c', hc, hwaiting, rfl⟩)
  | subscribe topic start =>
    simp only [BusSystem.step] at h
    split at h <;> cases h
    · exact hs
    · refine hs.of_moves (List.Subset.refl _) ?_
      intro i c' hc hwaiting hqueue
      rw [List.getElem?_append] at hc
      split at hc
      · exact ⟨c', hc, hwaiting, rfl⟩
      · cases List.mem_singleton.mp (List.mem_of_getElem? hc)
        cases hwaiting
  | cancel j =>
    cases h
    refine hs.of_moves (List.Subset.refl _) ?_
    intro i c' hc hwaiting hqueue
    rw [List.getElem?_modify] at hc
    obtain ⟨c, hi, rfl⟩ := Option.map_eq_some_iff.mp hc
    refine ⟨c, hi, ?_, ?_⟩
    · split at hwaiting <;> exact hwaiting
    · split <;> rfl
  | close =>
    simp only [BusSystem.step] at h
    split at h <;> cases h
    · exact hs
    · exact hs.of_moves (List.subset_append_left _ _) (fun i c' hc hwaiting _ => ⟨c', hc, hwaiting, rfl⟩)
  | call k =>
    simp only [BusSystem.step] at h
    split at h <;> cases h
    rename_i hk
    exact hs.advance hk
  | turn j pick =>
    simp only [BusSystem.step] at h
    split at h
    · cases h
    · rename_i c hj
      have hlt : j < s.consumers.length := (List.getElem?_eq_some_iff.mp hj).1
      -- the loop that moved waits on an empty queue only; the others did not move
      have hset : ∀ c1 : Consumer, (c1.loop = .waiting → c1.sub.queue = []) →
          BusSystem.Awake { s with consumers := s.consumers.set j c1 } := by
        intro c1 hempty
        refine hs.of_moves (List.Subset.refl _) ?_
        intro i c' hc hwaiting hqueue
        by_cases hji : j = i
        · subst hji
          rw [List.getElem?_set_self hlt] at hc
          cases hc
          exact absurd (hempty hwaiting) hqueue
        · rw [List.getElem?_set_ne hji] at hc
          exact ⟨c', hc, hwaiting, rfl⟩
      split at h
      · cases h
        exact hset _ nofun
      · split at h <;> cases h
        rename_i hturn
        exact hset _ (Consumer.turn_cases hturn).waiting

/-! ## Who is subscribed -/

def Consumer.entry (c : Consumer) : String × Bool := (c.topic, c.loop.isGone)

/-- The topic of every subscription there ever was, and whether it has ended. -/
def BusSystem.roster (s : BusSystem) : List (String × Bool) := s.consumers.map Consumer.entry

structure BusSystem.Rostered (s : BusSystem) : Prop where
  live : ∀ topic i, i ∈ s.bus.subs topic ↔ s.roster[i]? = some (topic, false)
  nodup : ∀ topic, (s.bus.subs topic).Nodup
  seen : ∀ topic, topic ∈ s.bus.seen ↔ ∃ ended, (topic, ended) ∈ s.roster

theorem entry_modify {f : Consumer → Consumer} (hf : ∀ c, (f c).entry = c.entry) (cs : List Consumer) (i : Nat) :
    (cs.modify i f).map Consumer.entry = cs.map Consumer.entry := by
  refine List.ext_getElem? fun j => ?_
  rw [List.getElem?_map, List.getElem?_map, List.getElem?_modify]
  cases cs[j]? with
  | none => rfl
  | some c =>
    simp only [Option.map_eq_map, Option.map_some, Option.some.injEq]
    split
    · exact hf c
    · rfl

theorem Consumer.Turned.entry (hturn : c.Turned closed c') : c'.entry = c.entry := by
  cases hturn with
  | leave hloop =>
    simp only [Consumer.entry, hloop]
    rfl
  | wait hloop _ => simp [Consumer.entry, hloop, DeliverLoop.isGone]
  | take hloop _ => simp [Consumer.entry, hloop, DeliverLoop.isGone]
  | wake hloop _ => simp [Consumer.entry, hloop, DeliverLoop.isGone]
  | ack hloop => simp [Consumer.entry, hloop, DeliverLoop.isGone]
  | nack hloop => simp [Consumer.entry, hloop, DeliverLoop.isGone]
  | retry hloop => simp [Consumer.entry, hloop, DeliverLoop.isGone]
  | giveUp hloop _ => simp [Consumer.entry, hloop, DeliverLoop.isGone]
  | goOn hloop _ => simp [Consumer.entry, hloop, DeliverLoop.isGone]

theorem BusSystem.advance_roster (k : Nat) (call : BusCall) : (s.advance k call).roster = s.roster := by
  cases call with
  | pushing env rest =>
    cases rest with
    | nil => rfl
    | cons j rest =>
      refine entry_modify ?_ s.consumers j
      exact fun _ => rfl
  | signalling env j rest =>
    refine entry_modify ?_ s.consumers j
    exact fun _ => rfl
  | closing rest =>
    cases rest with
    | nil => rfl
    | cons j rest =>
      refine entry_modify ?_ s.consumers j
      exact fun _ => rfl

theorem BusSystem.roster_set {bus : InProcess} {calls : List BusCall} :
    BusSystem.roster { bus := bus, consumers := s.consumers.set i c', calls := calls } = s.roster.set i c'.entry :=
  List.map_set

theorem BusSystem.Rostered.of_roster (hs : s.Rostered) (hbus : s'.bus.subs = s.bus.subs ∧ s'.bus.seen = s.bus.seen)
    (hroster : s'.roster = s.roster) : s'.Rostered where
  live topic i := by rw [hbus.1, hroster, hs.live]
  nodup topic := by rw [hbus.1]; exact hs.nodup topic
  seen topic := by rw [hbus.2, hroster, hs.seen]

theorem BusSystem.Rostered.register {topic : String} {start : Bool} {bus : InProcess} (hs : s.Rostered)
    (h : s.bus.register topic s.consumers.length = .ok bus) :
    BusSystem.Rostered
      { s with bus := bus, consumers := s.consumers ++ [{ topic := topic, sub := { cancel := start } }] } := by
  unfold InProcess.register at h
  split at h
  · cases h
  · cases h
    have hroster : BusSystem.roster { s with
          bus := { s.bus with
            subs := fun t => if t = topic then s.bus.subs topic ++ [s.consumers.length] else s.bus.subs t
            seen := if s.bus.seen.contains topic then s.bus.seen else s.bus.seen ++ [topic] }
          consumers := s.consumers ++ [{ topic := topic, sub := { cancel := start } }] } = s.roster ++ [(topic, false)] :=
      List.map_append
    have hlength : s.roster.length = s.consumers.length := List.length_map _
    have hfresh : s.consumers.length ∉ s.bus.subs topic := by
      intro hmem
      obtain ⟨hlt, -⟩ := List.getElem?_eq_some_iff.mp ((hs.live topic _).mp hmem)
      omega
    -- the new entry of the roster is the number the bus lists
    have hentry : ∀ t i, (s.roster ++ [(topic, false)])[i]? = some (t, false) ↔
        s.roster[i]? = some (t, false) ∨ (t = topic ∧ i = s.consumers.length) := by
      intro t i
      rw [List.getElem?_append]
      split
      · rename_i hlt
        constructor
        · exact .inl
        · rintro (h | ⟨-, rfl⟩)
          · exact h
          · omega
      · rename_i hge
        rw [List.getElem?_eq_none (Nat.not_lt.mp hge), hlength]
        by_cases hi : i = s.consumers.length
        · subst hi
          simp [eq_comm]
        · have hpos : i - s.consumers.length ≠ 0 := by omega
          simp [hi, hpos]
    constructor
    · intro t i
      rw [hroster, hentry, ← hs.live]
      simp only
      split
      · rename_i ht
        subst ht
        rw [List.mem_append, List.mem_singleton]
        simp
      · rename_i ht
        simp [ht]
    · intro t
      simp only
      split
      · rw [List.nodup_append]
        refine ⟨hs.nodup topic, List.nodup_singleton _, ?_⟩
        rintro a ha b hb rfl
        exact hfresh (List.mem_singleton.mp hb ▸ ha)
      · exact hs.nodup t
    · intro t
      rw [hroster]
      have hold := hs.seen t
      simp only [List.mem_append, List.mem_singleton, Prod.mk.injEq, exists_or]
      rw [← hold]
      have hadd : (∃ ended : Bool, t = topic ∧ ended = false) ↔ t = topic := by simp
      rw [hadd]
      split
      · rename_i hseen
        constructor
        · exact .inl
        · rintro (h | rfl)
          · exact h
          · exact List.contains_iff_mem.mp hseen
      · rw [List.mem_append, List.mem_singleton]

theorem BusSystem.Rostered.unregister (hs : s.Rostered) (hi : s.consumers[i]? = some c)
    (hloop : c.loop = .leaving) :
    BusSystem.Rostered
      { s with bus := s.bus.unregister c.topic i, consumers := s.consumers.set i { c with loop := .gone } } := by
  have hentry : s.roster[i]? = some (c.topic, false) := by
    simp [BusSystem.roster, hi, Consumer.entry, hloop, DeliverLoop.isGone]
  have hlt : i < s.roster.length := (List.getElem?_eq_some_iff.mp hentry).1
  constructor
  · intro t j
    rw [roster_set]
    simp only [InProcess.unregister]
    by_cases hij : i = j
    · subst hij
      rw [List.getElem?_set_self hlt]
      simp only [Consumer.entry, DeliverLoop.isGone, Option.some.injEq, Prod.mk.injEq, Bool.true_eq_false,
        and_false, iff_false]
      split
      · exact (hs.nodup _).not_mem_erase
      · rename_i ht
        rw [hs.live, hentry]
        simpa [eq_comm] using ht
    · rw [List.getElem?_set_ne hij, ← hs.live]
      split
      · rename_i ht
        rw [ht, List.mem_erase_of_ne (Ne.symm hij)]
      · exact Iff.rfl
  · intro t
    simp only [InProcess.unregister]
    split
    · exact (hs.nodup _).erase _
    · exact hs.nodup t
  · intro t
    rw [roster_set]
    simp only [InProcess.unregister]
    rw [hs.seen]
    constructor
    · rintro ⟨ended, hmem⟩
      obtain ⟨j, hj⟩ := List.mem_iff_getElem?.mp hmem
      by_cases hij : i = j
      · subst hij
        rw [hentry] at hj
        cases hj
        exact ⟨true, List.mem_set hlt _⟩
      · refine ⟨ended, List.mem_iff_getElem?.mpr ⟨j, ?_⟩⟩
        rw [List.getElem?_set_ne hij, hj]
    · rintro ⟨ended, hmem⟩
      obtain hmem | heq := List.mem_or_eq_of_mem_set hmem
      · exact ⟨ended, hmem⟩
      · cases heq
        exact ⟨false, List.mem_of_getElem? hentry⟩

theorem BusSystem.Rostered.step (hs : s.Rostered) (h : s.step e = some s') : s'.Rostered := by
  cases e with
  | publish p ev =>
    simp only [BusSystem.step] at h
    split at h <;> cases h
    · exact hs
    · exact hs.of_roster ⟨rfl, rfl⟩ rfl
  | subscribe topic start =>
    simp only [BusSystem.step] at h
    split at h <;> cases h
    · exact hs
    · rename_i hregister
      exact hs.register hregister
  | cancel j =>
    cases h
    refine hs.of_roster ⟨rfl, rfl⟩ (entry_modify ?_ s.consumers j)
    exact fun _ => rfl
  | close =>
    simp only [BusSystem.step] at h
    split at h <;> cases h
    · exact hs
    · exact hs.of_roster ⟨rfl, rfl⟩ rfl
  | call k =>
    simp only [BusSystem.step] at h
    split at h <;> cases h
    rename_i call _
    refine hs.of_roster ?_ (advance_roster k call)
    rw [advance_bus]
    exact ⟨rfl, rfl⟩
  | turn j pick =>
    simp only [BusSystem.step] at h
    split at h
    · cases h
    · rename_i c hj
      split at h
      · rename_i hloop
        cases h
        exact hs.unregister hj hloop
      · split at h <;> cases h
        rename_i hturn
        refine hs.of_roster ⟨rfl, rfl⟩ ?_
        rw [roster_set, (Consumer.turn_cases hturn).entry]
        have hentry : s.roster[j]? = some c.entry := by simp [BusSystem.roster, hj]
        obtain ⟨hlt, hget⟩ := List.getElem?_eq_some_iff.mp hentry
        rw [← hget, List.set_getElem_self]

/-! ## Every interleaving -/

structure BusSystem.Sound (requireSubTopics : List String) (s : BusSystem) : Prop where
  kept : s.Kept
  awake : s.Awake
  rostered : s.Rostered
  required : s.bus.requireSubTopics = requireSubTopics

theorem BusSystem.sound_init (requireSubTopics : List String) : (BusSystem.init requireSubTopics).Sound requireSubTopics where
  kept _ _ h := by simp [BusSystem.init] at h
  awake _ _ h := by simp [BusSystem.init] at h
  rostered := ⟨by simp [BusSystem.init, newInProcess, BusSystem.roster], fun _ => List.nodup_nil,
    by simp [BusSystem.init, newInProcess, BusSystem.roster]⟩
  required := rfl

theorem BusSystem.Sound.step {requireSubTopics : List String} (hs : s.Sound requireSubTopics)
    (h : s.step e = some s') : s'.Sound requireSubTopics where
  kept := hs.kept.step h
  awake := hs.awake.step h
  rostered := hs.rostered.step h
  required := (step_bus h).2.trans hs.required

theorem Consumer.Kept.isPrefix (h : c.Kept closed) : c.acked <+: c.queued := by
  obtain ⟨held, hqueued, -⟩ := h
  exact ⟨held ++ c.sub.queue, by rw [hqueued, List.append_assoc]⟩

theorem DeliverLoop.isGone_iff (loop : DeliverLoop) : loop.isGone = true ↔ loop = .gone := by
  cases loop <;> simp [DeliverLoop.isGone]

theorem BusSystem.Rostered.subs_nil (hs : s.Rostered) (topic : String) :
    s.bus.subs topic = [] ↔ ∀ c ∈ s.consumers, c.topic = topic → c.loop = .gone := by
  rw [List.eq_nil_iff_forall_not_mem]
  constructor
  · intro h c hc htopic
    obtain ⟨i, hi⟩ := List.mem_iff_getElem?.mp hc
    by_contra hloop
    refine h i ((hs.live topic i).mpr ?_)
    have hgone : c.loop.isGone = false := by
      rw [← Bool.not_eq_true, DeliverLoop.isGone_iff]
      exact hloop
    simp [BusSystem.roster, hi, Consumer.entry, htopic, hgone]
  · intro h i hi
    have hentry := (hs.live topic i).mp hi
    rw [BusSystem.roster, List.getElem?_map] at hentry
    obtain ⟨c, hc, hentry⟩ := Option.map_eq_some_iff.mp hentry
    obtain ⟨htopic, hgone⟩ := Prod.mk.inj hentry
    rw [(DeliverLoop.isGone_iff _).mpr (h c (List.mem_of_getElem? hc) htopic)] at hgone
    cases hgone

theorem BusSystem.Rostered.seen_iff (hs : s.Rostered) (topic : String) :
    topic ∈ s.bus.seen ↔ ∃ c ∈ s.consumers, c.topic = topic := by
  rw [hs.seen]
  constructor
  · rintro ⟨ended, hmem⟩
    obtain ⟨c, hc, hentry⟩ := List.mem_map.mp hmem
    exact ⟨c, hc, (Prod.mk.inj hentry).1⟩
  · rintro ⟨c, hc, rfl⟩
    exact ⟨c.loop.isGone, List.mem_map.mpr ⟨c, hc, rfl⟩⟩

theorem PublishPorts.envelope_topic {p : PublishPorts} {ev : OutboxEvent} {env : Envelope} (h : p.envelope ev = .ok env) :
    env.topic = ev.topic := by
  unfold PublishPorts.envelope at h
  split at h
  · cases h
  · dsimp only at h
    split at h
    · split at h <;> cases h
      rfl
    · cases h
      rfl

theorem BusSystem.Sound.publish_unheard {requireSubTopics : List String} (hs : s.Sound requireSubTopics) {p : PublishPorts}
    {ev : OutboxEvent} {env : Envelope} (henv : p.envelope ev = .ok env) (hopen : s.bus.closed = false) :
    s.bus.publishOne p ev = .error (.publish ev.topic .noSubscription) ↔
      (∀ c ∈ s.consumers, c.topic = ev.topic → c.loop = .gone) ∧
        ((∃ c ∈ s.consumers, c.topic = ev.topic) ∨ ev.topic ∈ requireSubTopics) := by
  have htopic := PublishPorts.envelope_topic henv
  have hcondition : ((s.bus.subs env.topic).length = 0 ∧
      (s.bus.seen.contains env.topic || s.bus.requiresSubscription env.topic) = true) ↔
        (∀ c ∈ s.consumers, c.topic = ev.topic → c.loop = .gone) ∧
          ((∃ c ∈ s.consumers, c.topic = ev.topic) ∨ ev.topic ∈ requireSubTopics) := by
    rw [List.length_eq_zero_iff, htopic, hs.rostered.subs_nil, Bool.or_eq_true, List.contains_iff_mem, hs.rostered.seen_iff,
      InProcess.requiresSubscription, List.contains_iff_mem, hs.required]
  rw [← hcondition]
  simp only [InProcess.publishOne, henv, InProcess.fanout, hopen]
  constructor
  · intro h
    by_contra hcond
    rw [if_neg Bool.false_ne_true, if_neg hcond] at h
    cases h
  · intro hcond
    rw [if_neg Bool.false_ne_true, if_pos hcond]

/-- After any interleaving of the calls and the loops: what a handler acknowledged is what was queued first, in its order;
a loop that waits beside a queued envelope has a signal, or a push is about to offer one; and an open bus refuses an envelope
where no subscription on its topic is left, if there ever was one or the topic requires one. A closed bus refuses them all. -/
theorem bus_neither_skips_nor_stalls {requireSubTopics : List String} {events : List BusEvent} {s : BusSystem}
    (hrun : Library.Runs BusSystem.step (fun _ _ => True) (.init requireSubTopics) events s) :
    (∀ c ∈ s.consumers, c.acked <+: c.queued) ∧
      (∀ (i : Nat) (c : Consumer), s.consumers[i]? = some c → c.loop = .waiting → c.sub.queue ≠ [] →
        c.sub.notify = true ∨ ∃ call ∈ s.calls, call.Signals i) ∧
      ∀ (p : PublishPorts) (ev : OutboxEvent) (env : Envelope), p.envelope ev = .ok env →
        (s.bus.closed = false →
          (s.bus.publishOne p ev = .error (.publish ev.topic .noSubscription) ↔
            (∀ c ∈ s.consumers, c.topic = ev.topic → c.loop = .gone) ∧
              ((∃ c ∈ s.consumers, c.topic = ev.topic) ∨ ev.topic ∈ requireSubTopics))) ∧
        (s.bus.closed = true → s.bus.publishOne p ev = .error (.publish ev.topic .busClosed)) := by
  have hs : s.Sound requireSubTopics := hrun.invariant (BusSystem.sound_init _) (fun hs _ h => hs.step h)
  refine ⟨?_, hs.awake, ?_⟩
  · intro c hc
    obtain ⟨i, hi⟩ := List.mem_iff_getElem?.mp hc
    exact (hs.kept i c hi).isPrefix
  · intro p ev env henv
    refine ⟨hs.publish_unheard henv, ?_⟩
    intro hclosed
    simp [InProcess.publishOne, henv, InProcess.fanout, hclosed]

/-! ## Two orders, a closed bus -/

def plainPorts : PublishPorts where
  marshal payload := .ok (marshalPayload payload)
  newID := .ok "c0ffee"
  inject metadata := metadata

def orderPlaced : OutboxEvent where
  topic := "orders"
  payload := none
  dedupKey := "k"
  instanceID := "i"
  definitionRef := ⟨"d", 1⟩

/-- An order is published while the loop waits, and the push has not offered its signal yet. -/
def latePush : List BusEvent := [.subscribe "orders" false, .turn 0 .run, .publish plainPorts orderPlaced, .call 0]

/-- The only subscription ends, and the bus is closed. -/
def goneThenClosed : List BusEvent :=
  [.subscribe "orders" true, .turn 0 .run, .cancel 0, .turn 0 .ctxDone, .turn 0 .run, .close]

theorem late_push_signals :
    ∃ s, Library.Runs BusSystem.step (fun _ _ => True) (.init []) latePush s ∧
      ∃ c, s.consumers[0]? = some c ∧ c.loop = .waiting ∧ c.sub.queue ≠ [] ∧
        (c.sub.notify = true ∨ ∃ call ∈ s.calls, call.Signals 0) := by
  have hrun := runs_of_play (P := fun _ _ => True) .refl (rfl : play BusSystem.step (fun _ _ => True) (.init []) latePush = _)
  refine ⟨_, hrun, _, rfl, rfl, nofun, ?_⟩
  exact (bus_neither_skips_nor_stalls hrun).2.1 0 _ rfl rfl nofun

theorem closed_bus_and_late_signal :
    (∃ s, Library.Runs BusSystem.step (fun _ _ => True) (.init []) goneThenClosed s ∧
      (∀ c ∈ s.consumers, c.topic = "orders" → c.loop = .gone) ∧ (∃ c ∈ s.consumers, c.topic = "orders") ∧
        s.bus.publishOne plainPorts orderPlaced ≠ .error (.publish "orders" .noSubscription)) ∧
    ∃ s, Library.Runs BusSystem.step (fun _ _ => True) (.init []) latePush s ∧
      ∃ c, s.consumers[0]? = some c ∧ c.loop = .waiting ∧ c.sub.queue ≠ [] ∧ c.sub.notify = false := by
  have hclosed := runs_of_play (P := fun _ _ => True) .refl
    (rfl : play BusSystem.step (fun _ _ => True) (.init []) goneThenClosed = _)
  have hlate := runs_of_play (P := fun _ _ => True) .refl
    (rfl : play BusSystem.step (fun _ _ => True) (.init []) latePush = _)
  refine ⟨⟨_, hclosed, ?_, ⟨_, List.mem_singleton.mpr rfl, rfl⟩, nofun⟩, ⟨_, hlate, _, rfl, rfl, nofun, rfl⟩⟩
  intro c hc _
  cases List.mem_singleton.mp hc
  rfl

end Wrkflw
