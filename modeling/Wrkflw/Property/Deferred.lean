import Wrkflw.Property.ParallelJoin
import Wrkflw.Property.Quiescence
import Wrkflw.Property.WalkEnd

/-!
# Deferred compensation throws

A throw that finds a walk in flight queues its token, and each walk that a throw started takes the next one up when it is
over. A queued token that is cancelled leaves its id behind, and a throw that finds nothing to undo takes nobody up.

* `Parked` : every queued id is that of a token that waits at a throw;
* `Queued` : moreover, while throws are queued a walk is in flight or a throw is about to be entered;
* `Shift` : what a move does to the queue; `Move.shift` : every move does one of these things;
* `deferred_throws_drain` : in a run in which nothing breaks the queue, every queued throw is taken up.
-/

namespace Wrkflw

open ControlState

/-- The token stands on a compensation throw of the definition its scope executes. -/
def OnThrow (top : ProcessDefinition) (trace : List Event) (t : Token) : Prop :=
  ∃ d, ScopeDefn top trace t.scopeID d ∧ ThrowNode d t.nodeID

/-- The event leaves the queue to its walks: no queued token is cancelled, nor an active one while the next throw is yet to
be entered, only failed tokens are resolved, no throw passes by with others queued behind it, and no walk ends without
taking up the next throw. -/
def Event.keepsQueue : Event → Bool
  | .cancelled tok queue walking => !queue.contains tok.id && (queue.isEmpty || walking || tok.state != .active)
  | .resolved tok _ => tok.state == .incident
  | .passed _ queue walking => queue.isEmpty || walking
  | .resumed popDeferred queue => popDeferred || queue.isEmpty
  | _ => true

/-- Every queued id is that of a token that waits at a throw. -/
structure Parked (top : ProcessDefinition) (s : ControlState) : Prop where
  waits : WaitsOK s
  parked : ∀ id ∈ s.deferredCompensationThrows, ∃ t ∈ s.tokens, t.id = id ∧ OnThrow top s.trace t

/-- A throw is about to be entered. -/
def Urged (top : ProcessDefinition) (s : ControlState) : Prop := ∃ t ∈ s.tokens, t.state = .active ∧ OnThrow top s.trace t

structure Queued (top : ProcessDefinition) (s : ControlState) : Prop extends Parked top s where
  moving : s.status.isTerminal = false → s.deferredCompensationThrows ≠ [] → s.InFlight ∨ Urged top s

/-- The status, and how far the walk is. -/
def ControlState.pace (s : ControlState) : Status × String × Int :=
  (s.status, s.compensating.activeCmdID, s.compensating.nextIndex)

/-- The queue is left alone: queued tokens stay, other tokens come and go, and the walk goes no step back. -/
structure Spares (top : ProcessDefinition) (s s' : ControlState) : Prop where
  queue : s'.deferredCompensationThrows = s.deferredCompensationThrows
  trace : s.trace ⊆ s'.trace
  tokens : ∀ t ∈ s'.tokens, t ∈ s.tokens ∨ (t.AwaitOK ∧ t.id ∉ s.deferredCompensationThrows)
  held : ∀ t ∈ s.tokens, t.id ∈ s.deferredCompensationThrows → t ∈ s'.tokens
  terminal : s.status.isTerminal = true → s'.status.isTerminal = true
  flight : s.InFlight → s'.InFlight ∧ s'.compensating.nextIndex ≤ s.compensating.nextIndex
  urged : s.deferredCompensationThrows ≠ [] → ¬ s.InFlight → Urged top s → s'.InFlight ∨ Urged top s'

/-- What a move does to the queue. -/
inductive Shift (top : ProcessDefinition) (s s' : ControlState) : Prop
  | spares (h : Spares top s s')
  | defers (tok : Token) (hthrow : AtThrow top s tok) (hflight : s.InFlight) (h : s' = s.deferCompensationThrow tok.id)
  | pops (hparked : Parked top s') (id : String) (hq : s.deferredCompensationThrows = id :: s'.deferredCompensationThrows)
      (he : Event.reactivated id ∈ since s s') (hurged : Urged top s')
  | blank (hparked : Parked top s') (hq : s.deferredCompensationThrows = []) (hq' : s'.deferredCompensationThrows = [])

section Moves
variable {top : ProcessDefinition} {g : IDGenerator} {trg : TriggerBody} {s s' : ControlState}

theorem OnThrow.mono {trace trace' : List Event} {t : Token} (h : OnThrow top trace t) (hsub : trace ⊆ trace') :
    OnThrow top trace' t := by
  obtain ⟨d, hd, hnode⟩ := h
  exact ⟨d, hd.mono hsub, hnode⟩

theorem AtThrow.onThrow {tok : Token} (hn : Names g s) (h : AtThrow top s tok) : OnThrow top s.trace tok := by
  obtain ⟨d, hd, hnode⟩ := h.node
  exact ⟨d, defForScope_defn hn hd, hnode⟩

theorem walking_iff : s.walking = true ↔ s.InFlight := by
  unfold ControlState.walking InFlight
  rw [bne_iff_ne]

/-- A token that may leave an active throw has nobody behind it. -/
theorem Free.unthrown {t : Token} (hn : Names g s) (hC : ∀ e ∈ s.trace, e.keepsQueue = true) (hok : t.AwaitOK)
    (hfree : Free top s t) (hq : s.deferredCompensationThrows ≠ []) (hidle : ¬ s.InFlight) (hactive : t.state = .active) :
    ¬ OnThrow top s.trace t := by
  rintro ⟨d', hd', hnode⟩
  rcases hfree with haw | ⟨-, d, hdef, -, hpass⟩
  · exact hok.quiet (Or.inl hactive) haw
  · rw [hd'.unique hn.opened (defForScope_defn hn hdef)] at hnode
    have hkeeps := hC _ (hpass hnode)
    simp only [Event.keepsQueue, Bool.or_eq_true, List.isEmpty_iff] at hkeeps
    exact hkeeps.elim hq (fun hw => hidle (walking_iff.mp hw))

/-! ## Steps that leave the queue alone -/

theorem Parked.spares (h : Parked top s) (hs : Spares top s s') : Parked top s' where
  waits := by
    refine h.waits.step ?_ (hs.queue ▸ List.Subset.refl _) (hs.queue ▸ h.waits.nodup)
    rw [hs.queue]
    exact hs.tokens
  parked := by
    intro id hid
    rw [hs.queue] at hid
    obtain ⟨t, ht, rfl, hthrow⟩ := h.parked id hid
    exact ⟨t, hs.held t ht hid, rfl, hthrow.mono hs.trace⟩

theorem Parked.rests (h : Parked top s) (hr : Rests s s') : Parked top s' := by
  obtain ⟨es, he, -⟩ := hr.trace
  have hsub : s.trace ⊆ s'.trace := he ▸ List.subset_append_right _ _
  refine ⟨h.waits.step (fun t ht => Or.inl (hr.tokens ▸ ht)) (hr.queue ▸ List.Subset.refl _) (hr.queue ▸ h.waits.nodup),
    fun id hid => ?_⟩
  obtain ⟨t, ht, hid', hon⟩ := h.parked id (hr.queue ▸ hid)
  exact ⟨t, hr.tokens ▸ ht, hid', hon.mono hsub⟩

theorem pace_of_outline (h : s'.outline = s.outline) : s'.pace = s.pace := by
  have hout : ∀ p : ControlState, p.outline.pace = p.pace := fun _ => rfl
  rw [← hout s', h, hout s]

/-- The walk and the status stay as they are. -/
theorem Spares.steady (hq : s'.deferredCompensationThrows = s.deferredCompensationThrows) (htrace : s.trace ⊆ s'.trace)
    (htok : ∀ t ∈ s'.tokens, t ∈ s.tokens ∨ (t.AwaitOK ∧ t.id ∉ s.deferredCompensationThrows))
    (hheld : ∀ t ∈ s.tokens, t.id ∈ s.deferredCompensationThrows → t ∈ s'.tokens) (hpace : s'.pace = s.pace)
    (hurged : s.deferredCompensationThrows ≠ [] → ¬ s.InFlight → ∀ t ∈ s.tokens, t.state = .active →
      OnThrow top s.trace t → t ∈ s'.tokens) : Spares top s s' := by
  have hst : s'.status = s.status := congrArg Prod.fst hpace
  have hcmd : s'.compensating.activeCmdID = s.compensating.activeCmdID := congrArg (·.2.1) hpace
  have hidx : s'.compensating.nextIndex = s.compensating.nextIndex := congrArg (·.2.2) hpace
  refine ⟨hq, htrace, htok, hheld, fun ht => hst ▸ ht, fun hf => ⟨?_, hidx.le⟩, ?_⟩
  · unfold InFlight
    rw [hcmd]
    exact hf
  · rintro hne hidle ⟨t, ht, hactive, hthrow⟩
    exact Or.inr ⟨t, hurged hne hidle t ht hactive hthrow, hactive, hthrow.mono htrace⟩

theorem Spares.rests (hr : Rests s s') (hpace : s'.pace = s.pace) : Spares top s s' := by
  obtain ⟨es, he, -⟩ := hr.trace
  refine .steady hr.queue ?_ (fun t ht => Or.inl (hr.tokens ▸ ht)) (fun t ht _ => hr.tokens ▸ ht) hpace
    (fun _ _ t ht _ _ => hr.tokens ▸ ht)
  rw [he]
  exact List.subset_append_right _ _

/-- One token changed that was not queued and no throw about to be entered. -/
theorem Spares.change (hn : Names g s) {t0 : Token} (hmem : t0 ∈ s.tokens) {f : Token → Token}
    (hid : (f t0).id = t0.id) (hq : t0.id ∉ s.deferredCompensationThrows) (hok : (f t0).AwaitOK)
    (hstill : s.deferredCompensationThrows ≠ [] → ¬ s.InFlight → t0.state = .active → ¬ OnThrow top s.trace t0)
    (htok : s'.tokens = s.tokens.map (fun t => if t.id == t0.id then f t else t))
    (hqueue : s'.deferredCompensationThrows = s.deferredCompensationThrows) (htrace : s.trace ⊆ s'.trace)
    (hpace : s'.pace = s.pace) : Spares top s s' := by
  have hkept : ∀ t ∈ s.tokens, t.id ≠ t0.id → t ∈ s'.tokens := by
    intro t ht hne
    rw [htok]
    refine List.mem_map.mpr ⟨t, ht, ?_⟩
    rw [if_neg (by simpa using hne)]
  refine .steady hqueue htrace (fun t ht => ?_) (fun t ht hin => hkept t ht (fun he => hq (he ▸ hin))) hpace
    (fun hne hidle t ht hactive hthrow => hkept t ht (fun he => ?_))
  · rw [htok] at ht
    obtain ⟨t', ht', rfl⟩ := List.mem_map.mp ht
    by_cases he : t'.id = t0.id
    · rw [hn.tokens.eq_of_id ht' hmem he, if_pos (by simp)]
      exact Or.inr ⟨hok, hid ▸ hq⟩
    · rw [if_neg (by simpa using he)]
      exact Or.inl ht'
  · rw [hn.tokens.eq_of_id ht hmem he] at hactive hthrow
    exact hstill hne hidle hactive hthrow

/-- Tokens go that were not queued and no throws about to be entered. -/
theorem Spares.drop {p : Token → Bool} (htok : s'.tokens = s.tokens.filter p)
    (hout : ∀ t ∈ s.tokens, p t = false → t.id ∉ s.deferredCompensationThrows ∧
      (s.deferredCompensationThrows ≠ [] → ¬ s.InFlight → t.state = .active → ¬ OnThrow top s.trace t))
    (hqueue : s'.deferredCompensationThrows = s.deferredCompensationThrows) (htrace : s.trace ⊆ s'.trace)
    (hpace : s'.pace = s.pace) : Spares top s s' := by
  have hkept : ∀ t ∈ s.tokens, p t ≠ false → t ∈ s'.tokens := by
    intro t ht hp
    rw [htok]
    exact List.mem_filter.mpr ⟨ht, Bool.not_eq_false _ ▸ hp⟩
  refine .steady hqueue htrace (fun t ht => Or.inl ?_) (fun t ht hin => hkept t ht (fun hp => (hout t ht hp).1 hin)) hpace
    (fun hne hidle t ht hactive hthrow => hkept t ht (fun hp => (hout t ht hp).2 hne hidle hactive hthrow))
  rw [htok] at ht
  exact List.mem_of_mem_filter ht

theorem Spares.trans {s1 : ControlState} (h : Spares top s s1) (h' : Spares top s1 s') : Spares top s s' where
  queue := h'.queue.trans h.queue
  trace := List.Subset.trans h.trace h'.trace
  tokens := fun t ht => (h'.tokens t ht).elim (h.tokens t) (fun hnew => Or.inr (h.queue ▸ hnew))
  held := fun t ht hid => h'.held t (h.held t ht hid) (h.queue ▸ hid)
  terminal := fun ht => h'.terminal (h.terminal ht)
  flight := fun hf => ⟨(h'.flight (h.flight hf).1).1, (h'.flight (h.flight hf).1).2.trans (h.flight hf).2⟩
  urged := by
    intro hne hidle hurged
    by_cases hf : s1.InFlight
    · exact Or.inl (h'.flight hf).1
    · exact h'.urged (h.queue ▸ hne) hf ((h.urged hne hidle hurged).resolve_left hf)

theorem pace_cancelToken (s : ControlState) (tok : Token) (at_ : Time) (kind : CloseKind) :
    (s.cancelToken tok at_ kind).pace = s.pace := by
  rcases s.cancelToken_shape tok at_ kind with he | ⟨t, -, -, -, h, -, he⟩ <;> rw [he]
  rfl

theorem Spares.cancelToken (hn : Names g s) (tok : Token) (at_ : Time) (kind : CloseKind)
    (hC : ∀ e ∈ (s.cancelToken tok at_ kind).trace, e.keepsQueue = true) : Spares top s (s.cancelToken tok at_ kind) := by
  have hpace := pace_cancelToken s tok at_ kind
  rcases s.cancelToken_shape tok at_ kind with he | ⟨t0, hmem, hid, -, h, -, he⟩
  · rw [he]
    exact .rests (Rests.refl s) rfl
  · have hkeeps : Event.keepsQueue (.cancelled t0 s.deferredCompensationThrows s.walking) = true := by
      refine hC _ ?_
      rw [he]
      exact List.mem_cons_self
    simp only [Event.keepsQueue, Bool.and_eq_true, Bool.or_eq_true, Bool.not_eq_true', List.isEmpty_iff, bne_iff_ne,
      List.contains_eq_mem, decide_eq_false_iff_not] at hkeeps
    rw [he] at hpace ⊢
    refine .drop rfl (fun t ht hp => ?_) rfl (List.subset_cons_self _ _) hpace
    have heq : t = t0 := hn.tokens.eq_of_id ht hmem ((by simpa using hp : t.id = tok.id).trans hid.symm)
    subst heq
    refine ⟨hkeeps.1, fun hne hidle hactive _ => ?_⟩
    rcases hkeeps.2 with (hq | hw) | hst
    · exact hne hq
    · exact hidle (walking_iff.mp hw)
    · exact hst hactive

theorem Spares.outline (h : s'.outline = s.outline) : Spares top s s' := .rests (Rests.of_outline h) (pace_of_outline h)

theorem Spares.sweep (hn : Names g s) (h : Sweep s s') (hC : ∀ e ∈ s'.trace, e.keepsQueue = true) : Spares top s s' := by
  cases h with
  | archive id => exact .outline (s.archiveCompensations_outline id)
  | cancel tok at_ kind => exact .cancelToken hn tok at_ kind hC
  | consolidate => exact .outline s.consolidate_outline

/-- What is swept away was not queued. -/
theorem Parked.sweeps (hn : Names g s) (h : Parked top s) (hsweep : Sweeps s s')
    (hC : ∀ e ∈ s'.trace, e.keepsQueue = true) :
    Parked top s' ∧ s'.deferredCompensationThrows = s.deferredCompensationThrows := by
  induction hsweep with
  | refl => exact ⟨h, rfl⟩
  | @tail m p hpre hstep ih =>
    have hlogs : Logs true top g m p := Logs.sweep hstep
    obtain ⟨hm, hq⟩ := ih (fun e he => hC e (hlogs.subset he))
    have hspares : Spares top m p := .sweep (hn.of_shrinks (Names.Shrinks.sweeps hpre)) hstep hC
    exact ⟨hm.spares hspares, hspares.queue.trans hq⟩

theorem Parked.empty (h : Parked top s) (htok : s.tokens = []) : s.deferredCompensationThrows = [] := by
  refine List.eq_nil_iff_forall_not_mem.mpr (fun id hid => ?_)
  obtain ⟨t, ht, -⟩ := h.parked id hid
  rw [htok] at ht
  cases ht

theorem Spares.place (hn : Names g s) (node scope flow : String) (at_ : Time) :
    Spares top s (s.placeTokenInScope g node scope flow at_) := by
  refine .steady rfl (List.subset_cons_self _ _) (fun t ht => ?_) (fun t ht _ => List.mem_append_left _ ht) rfl
    (fun _ _ t ht _ _ => List.mem_append_left _ ht)
  rcases List.mem_append.mp ht with ht | ht
  · exact Or.inl ht
  · rw [List.mem_singleton.mp ht]
    exact Or.inr ⟨Token.AwaitOK.of_lone (by simp [Token.Awaits]), fun hid => (hn.queue _ hid).ne_next rfl⟩

/-- A converging gateway is no throw. -/
theorem JoinSite.not_throw {d : ProcessDefinition} {node : Node} {scopeID : String} {kind : NodeKind} (hn : Names g s)
    (h : JoinSite top s d node scopeID kind) (hkind : kind = .parallelGateway ∨ kind = .inclusiveGateway) {t : Token}
    (hnode : t.nodeID = node.id) (hscope : t.scopeID = scopeID) : ¬ OnThrow top s.trace t := by
  rintro ⟨d', hd', n, e, hfind, hspec⟩
  rw [hscope] at hd'
  rw [hd'.unique hn.opened (defForScope_defn hn h.defn), hnode, h.found] at hfind
  have hk := h.kind_eq
  rw [Option.some.inj hfind] at hk
  unfold NodeOf.kind at hk
  rw [hspec] at hk
  rw [← hk] at hkind
  rcases hkind with hkind | hkind <;> cases hkind

theorem Spares.parkedOn {p : ControlState} {d : ProcessDefinition} {node : Node} {scopeID : String} {kind : NodeKind}
    (hn : Names g s) (h : Parked top s) (hp : ParkedOn s p node scopeID) (hsite : JoinSite top s d node scopeID kind)
    (hkind : kind = .parallelGateway ∨ kind = .inclusiveGateway) : Spares top s p := by
  rcases hp with rfl | ⟨tok, hmem, hactive, hnode, hscope, rfl⟩
  · exact .rests (Rests.refl _) rfl
  · have hlone : ¬ tok.Awaits := (h.waits.ok tok hmem).quiet (Or.inl hactive)
    refine .change hn hmem (f := fun t => { t with state := .joining }) rfl ?_ (Token.AwaitOK.of_lone hlone)
      (fun _ _ _ => hsite.not_throw hn hkind hnode hscope) rfl rfl (List.Subset.refl _) rfl
    refine h.waits.not_queued hmem (Or.inr ?_)
    rw [hactive]
    simp

/-- A firing join takes tokens that are parked on it. -/
theorem Spares.fires {p : ControlState} {node scopeID : String} {consumed : List Token} {e : Event} (h : Parked top p) :
    Spares top p ((p.note e).withoutJoined node scopeID consumed) := by
  refine .drop rfl (fun t ht hp => ?_) rfl (List.subset_cons_self _ _) rfl
  simp only [Bool.not_eq_false', Bool.and_eq_true] at hp
  have hst := (joinedAt_iff.mp hp.1).2.1
  refine ⟨h.waits.not_queued ht (Or.inr (by rw [hst]; simp)), fun _ _ hactive => ?_⟩
  rw [hst] at hactive
  cases hactive

/-! ## The queue grows and shrinks -/

/-- A throw's token waits for its turn. -/
theorem Parked.defer (hn : Names g s) (h : Parked top s) {tok : Token} (hthrow : AtThrow top s tok) :
    Parked top (s.deferCompensationThrow tok.id) := by
  have hlone : ¬ tok.Awaits := (h.waits.ok tok hthrow.mem).quiet (Or.inl hthrow.active)
  have hq : tok.id ∉ s.deferredCompensationThrows := by
    refine h.waits.not_queued hthrow.mem (Or.inr ?_)
    rw [hthrow.active]
    simp
  have hwait : { tok with state := .waiting } ∈ (s.deferCompensationThrow tok.id).tokens := by
    refine List.mem_map.mpr ⟨tok, hthrow.mem, ?_⟩
    rw [if_pos (by simp)]
  have hall : ∀ t ∈ (s.deferCompensationThrow tok.id).tokens, (t ∈ s.tokens ∧ t.id ≠ tok.id) ∨
      t = { tok with state := .waiting } := by
    intro t ht
    obtain ⟨t', ht', rfl⟩ := List.mem_map.mp ht
    by_cases he : t'.id = tok.id
    · rw [hn.tokens.eq_of_id ht' hthrow.mem he, if_pos (by simp)]
      exact Or.inr rfl
    · rw [if_neg (by simpa using he)]
      exact Or.inl ⟨ht', he⟩
  refine ⟨⟨fun t ht => ?_, fun t ht hid => ?_, ?_⟩, fun id hid => ?_⟩
  · rcases hall t ht with ⟨ht, -⟩ | rfl
    · exact h.waits.ok t ht
    · exact Token.AwaitOK.of_lone hlone
  · rcases hall t ht with ⟨ht, hne⟩ | rfl
    · rcases List.mem_append.mp hid with hid | hid
      · exact h.waits.queued t ht hid
      · exact absurd (List.mem_singleton.mp hid) hne
    · exact ⟨rfl, hlone⟩
  · change (s.deferredCompensationThrows ++ [tok.id]).Nodup
    rw [List.nodup_append]
    refine ⟨h.waits.nodup, List.nodup_singleton _, fun a ha b hb hab => ?_⟩
    rw [List.mem_singleton.mp hb] at hab
    exact hq (hab ▸ ha)
  · rcases List.mem_append.mp hid with hid | hid
    · obtain ⟨t, ht, rfl, hon⟩ := h.parked id hid
      refine ⟨t, List.mem_map.mpr ⟨t, ht, ?_⟩, rfl, hon⟩
      rw [if_neg]
      intro he
      exact hq ((by simpa using he : t.id = tok.id) ▸ hid)
    · rw [List.mem_singleton.mp hid]
      have hon : OnThrow top s.trace tok := hthrow.onThrow hn
      exact ⟨_, hwait, rfl, hon⟩

/-- The next queued throw is taken up. -/
theorem Parked.pop (hn : Names g s) (h : Parked top s) {id : String} {rest : List String}
    (hq : s.deferredCompensationThrows = id :: rest) :
    Parked top s.popOneDeferredThrow ∧ s.popOneDeferredThrow.deferredCompensationThrows = rest ∧
      s.popOneDeferredThrow.trace = .reactivated id :: s.trace ∧ Urged top s.popOneDeferredThrow := by
  obtain ⟨t, ht, hid, hon⟩ := h.parked id (hq ▸ List.mem_cons_self)
  have hwait := h.waits.queued t ht (by rw [hq, hid]; exact List.mem_cons_self)
  have hnodup : (id :: rest).Nodup := hq ▸ h.waits.nodup
  have hfind : ({ s with deferredCompensationThrows := rest } : ControlState).tokenByID id = some t := by
    have hsome : (s.tokenByID id).isSome = true := by
      unfold ControlState.tokenByID
      rw [if_neg (by rw [← hid]; simpa using hn.tokens.ne_empty ht), List.find?_isSome]
      exact ⟨t, ht, by simpa using hid⟩
    obtain ⟨t', ht'⟩ := Option.isSome_iff_exists.mp hsome
    obtain ⟨hmem', hid', -⟩ := tokenByID_some _ ht'
    rw [hn.tokens.eq_of_id ht hmem' (hid.trans hid'.symm)]
    exact ht'
  have hpop : s.popOneDeferredThrow = (({ s with deferredCompensationThrows := rest } : ControlState).setTokenState t.id
      .active).note (.reactivated id) := by
    unfold ControlState.popOneDeferredThrow
    rw [hq]
    dsimp only
    rw [hfind]
  have hactive : { t with state := .active } ∈ s.popOneDeferredThrow.tokens := by
    rw [hpop]
    refine List.mem_map.mpr ⟨t, ht, ?_⟩
    rw [if_pos (by simp)]
  have hsub : s.trace ⊆ s.popOneDeferredThrow.trace := by
    rw [hpop]
    exact List.subset_cons_self _ _
  refine ⟨⟨?_, fun id' hid' => ?_⟩, by rw [hpop]; rfl, by rw [hpop]; rfl, _, hactive, rfl, hon.mono hsub⟩
  · rw [hpop]
    refine h.waits.step (fun t' ht' => ?_) (hq ▸ List.subset_cons_self id rest) (List.nodup_cons.mp hnodup).2
    obtain ⟨t1, ht1, rfl⟩ := List.mem_map.mp ht'
    by_cases he : t1.id = t.id
    · rw [hn.tokens.eq_of_id ht1 ht he, if_pos (by simp)]
      exact Or.inr ⟨Token.AwaitOK.of_lone hwait.2, fun hin => (List.nodup_cons.mp hnodup).1 (hid ▸ hin)⟩
    · rw [if_neg (by simpa using he)]
      exact Or.inl ht1
  · have hin : id' ∈ rest := by
      rw [hpop] at hid'
      exact hid'
    obtain ⟨t1, ht1, rfl, hon1⟩ := h.parked id' (hq ▸ List.mem_cons_of_mem id hin)
    refine ⟨t1, ?_, rfl, hon1.mono hsub⟩
    rw [hpop]
    refine List.mem_map.mpr ⟨t1, ht1, ?_⟩
    rw [if_neg]
    intro he
    exact (List.nodup_cons.mp hnodup).1 (hid ▸ (by simpa using he : t1.id = t.id) ▸ hin)

/-- The walk is over and the instance goes on. -/
theorem Parked.resume (hn : Names g s) (h : Parked top s) (at_ : Time) (plan : FinishPlan)
    (hscope : Ref g s.scopeSeq plan.resumeScope)
    (hC : ∀ e ∈ (resumeControl g at_ plan s).trace, e.keepsQueue = true) :
    Parked top (resumeControl g at_ plan s) ∧
      ((s.deferredCompensationThrows = [] ∧ (resumeControl g at_ plan s).deferredCompensationThrows = []) ∨
        ∃ id, s.deferredCompensationThrows = id :: (resumeControl g at_ plan s).deferredCompensationThrows ∧
          Event.reactivated id ∈ since s (resumeControl g at_ plan s) ∧ Urged top (resumeControl g at_ plan s)) := by
  obtain ⟨hrest, hshrink⟩ := Rests.resumed plan s
  have hn1 := hn.of_shrinks hshrink
  have h1 := h.rests hrest
  have hseq := hshrink.scopeSeq
  have hq1 := hrest.queue
  obtain ⟨es1, he1, -⟩ := hshrink.trace
  unfold resumeControl at hC ⊢
  dsimp only at hC ⊢
  set s1 := { applyPlanRecordClearing plan s with status := .running }.note
    (.resumed plan.popDeferred s.deferredCompensationThrows) with hs1
  have hnoted : Event.resumed plan.popDeferred s.deferredCompensationThrows ∈ s1.trace := List.mem_cons_self
  set s2 := if resumeDropped plan s1 then s1
    else s1.placeTokenInScope g plan.resumeAt plan.resumeScope plan.resumeFlow at_ with hs2
  have hplaced : Names g s2 ∧ Spares top s1 s2 ∧ ∃ es, s2.trace = es ++ s1.trace := by
    rw [hs2]
    split
    · exact ⟨hn1, .rests (Rests.refl _) rfl, [], rfl⟩
    · exact ⟨hn1.placeTokenInScope _ _ _ _ (hseq ▸ hscope), .place hn1 _ _ _ _, [_], rfl⟩
  obtain ⟨hn2, hsp, es2, he2⟩ := hplaced
  have h2 : Parked top s2 := h1.spares hsp
  have hq2 : s2.deferredCompensationThrows = s.deferredCompensationThrows := hsp.queue.trans hq1
  cases hq : s.deferredCompensationThrows with
  | nil =>
    have hpop : s2.popOneDeferredThrow = s2 := by
      unfold ControlState.popOneDeferredThrow
      rw [hq2, hq]
    rw [hpop, ite_self]
    exact ⟨h2, Or.inl ⟨rfl, hq2.trans hq⟩⟩
  | cons id rest =>
    have hmem : Event.resumed plan.popDeferred s.deferredCompensationThrows ∈
        (if plan.popDeferred then s2.popOneDeferredThrow else s2).trace := by
      have hin : Event.resumed plan.popDeferred s.deferredCompensationThrows ∈ s2.trace := hsp.trace hnoted
      split
      · have hlogs : Logs true top g s2 s2.popOneDeferredThrow := Logs.popOneDeferredThrow s2
        exact hlogs.subset hin
      · exact hin
    have hkeeps := hC _ hmem
    rw [hq] at hkeeps
    simp only [Event.keepsQueue, List.isEmpty_cons, Bool.or_false] at hkeeps
    rw [hkeeps, if_pos rfl]
    obtain ⟨hparked, hrest', htrace, hurged⟩ := h2.pop hn2 (hq2.trans hq)
    refine ⟨hparked, Or.inr ⟨id, by rw [hrest'], ?_, hurged⟩⟩
    have hall : s2.popOneDeferredThrow.trace = (.reactivated id :: (es2 ++ es1)) ++ s.trace := by
      rw [htrace, he2, he1, List.cons_append, List.append_assoc]
    rw [since_eq hall]
    exact List.mem_cons_self

/-- A finished walk that resumes takes up the next throw. -/
theorem Parked.finish (hn : Names g s) (h : Parked top s) (cur : CompensationCursor) (at_ : Time)
    (hscope : s.ScopeRef g cur.resumeScope)
    (hC : ∀ e ∈ (resumeControl g at_ (finishPlan s.settled cur)
      (applyDeleteArchive (finishPlan s.settled cur) s.settled)).trace, e.keepsQueue = true)
    (hs' : s' = resumeControl g at_ (finishPlan s.settled cur) (applyDeleteArchive (finishPlan s.settled cur) s.settled)) :
    Parked top s' ∧ ((s.deferredCompensationThrows = [] ∧ s'.deferredCompensationThrows = []) ∨
      ∃ id, s.deferredCompensationThrows = id :: s'.deferredCompensationThrows ∧
        Event.reactivated id ∈ since s s' ∧ Urged top s') := by
  subst hs'
  have hdel := Names.Shrinks.deleted s (finishPlan s.settled cur)
  have hrest := Rests.deleted s (finishPlan s.settled cur)
  have href : Ref g (applyDeleteArchive (finishPlan s.settled cur) s.settled).scopeSeq
      (finishPlan s.settled cur).resumeScope := by
    rw [hdel.scopeSeq]
    rcases finishPlan_resumeScope s.settled cur with h' | h'
    · exact Or.inl h'
    · rw [h']
      exact hscope
  obtain ⟨hparked, hturn⟩ := (h.rests hrest).resume (hn.of_shrinks hdel) at_ (finishPlan s.settled cur) href hC
  have htr := (sameOutline (applyDeleteArchive_outline (finishPlan s.settled cur) s.settled)).trace
  have hsince : since (applyDeleteArchive (finishPlan s.settled cur) s.settled) = since s := by
    unfold since
    rw [htr]
    rfl
  rw [hrest.queue, hsince] at hturn
  exact ⟨hparked, hturn⟩

/-! ## Moves -/

theorem dispatch_cursor (s : ControlState) (cur : CompensationCursor) (idx : Int) (rec : CompensationRecord)
    (cmdID : String) : (s.dispatch cur idx rec cmdID).compensating.activeCmdID = cur.activeCmdID ∧
      (s.dispatch cur idx rec cmdID).compensating.nextIndex = cur.nextIndex := by
  have ho := (sameOutline (dispatch_outline s cur idx rec cmdID)).compensating
  exact ⟨(congrArg CompensationCursor.activeCmdID ho :), (congrArg CompensationCursor.nextIndex ho :)⟩

theorem pace_closeScope (s : ControlState) (id : String) : (s.closeScope id).pace = s.pace := by
  obtain ⟨p, he⟩ := s.closeScope_shape id
  rw [he]
  rfl

theorem Spares.closeScope (s : ControlState) (id : String) : Spares top s (s.closeScope id) :=
  .rests (Rests.closeScope s id) (pace_closeScope s id)

/-- The walk goes on. -/
theorem Spares.walks (hs : Phase g s) (hr : Rests s s') (hflight : s.InFlight) (hflight' : s'.InFlight)
    (hidx : s'.compensating.nextIndex ≤ s.compensating.nextIndex) : Spares top s s' := by
  obtain ⟨es, he, -⟩ := hr.trace
  refine ⟨hr.queue, he ▸ List.subset_append_right _ _, fun t ht => Or.inl (hr.tokens ▸ ht), fun t ht _ => hr.tokens ▸ ht,
    fun ht => absurd ht (not_terminal (hs.status.mpr hflight)), fun _ => ⟨hflight', hidx⟩, fun _ hidle =>
    absurd hflight hidle⟩

theorem Move.shift (hs : Wf g s) (hC' : ∀ e ∈ s'.trace, e.keepsQueue = true) (h : Parked top s)
    (hmove : Move top g trg s s') : Shift top s s' := by
  have hn := hs.names
  have hlogs : Logs true top g s s' := hmove.logs hs
  have hC : ∀ e ∈ s.trace, e.keepsQueue = true := fun e he => hC' e (hlogs.subset he)
  have hfree : ∀ t ∈ s.tokens, Free top s t → t.id ∉ s.deferredCompensationThrows ∧
      (s.deferredCompensationThrows ≠ [] → ¬ s.InFlight → t.state = .active → ¬ OnThrow top s.trace t) :=
    fun t ht hf => ⟨h.waits.not_queued ht hf.cases, hf.unthrown hn hC (h.waits.ok t ht)⟩
  cases hmove with
  | book h' n hh hn' => exact .spares (.rests (Rests.same rfl rfl rfl) rfl)
  | place n sc flow at_ hfwd hscope => exact .spares (.place hn n sc flow at_)
  | touch id f hf =>
    by_cases hex : ∃ t ∈ s.tokens, t.id = id
    · obtain ⟨t0, hmem, rfl⟩ := hex
      have hstays := hf t0 hmem rfl
      obtain ⟨hq, hstill⟩ := hfree t0 hmem hstays.free
      exact .spares (.change hn hmem hstays.place.id hq (hstays.ok (h.waits.ok t0 hmem)) hstill rfl rfl
        (List.Subset.refl _) rfl)
    · have htok : (s.updateToken id f).tokens = s.tokens := by
        refine (List.map_congr_left (fun t ht => ?_)).trans (List.map_id _)
        rw [if_neg]
        · rfl
        · intro he
          exact hex ⟨t, ht, by simpa using he⟩
      exact .spares (.rests (Rests.same htok rfl rfl) rfl)
  | leave id target sc flow f hmem hf =>
    obtain ⟨t0, hmem, rfl⟩ := hmem
    have hleaves := hf t0 hmem rfl
    obtain ⟨hq, hstill⟩ := hfree t0 hmem hleaves.free
    exact .spares (.change hn hmem hleaves.id hq (hleaves.ok (h.waits.ok t0 hmem)) hstill rfl rfl
      (List.subset_cons_self _ _) rfl)
  | pass tok hthrow => exact .spares (.rests ((Rests.refl s).note trivial) rfl)
  | resolve tok f hmem hf =>
    have hincident : tok.state = .incident := by
      have hkeeps := hC' (.resolved tok s.deferredCompensationThrows) List.mem_cons_self
      simpa [Event.keepsQueue] using hkeeps
    have hq := h.waits.not_queued hmem (Or.inr (by rw [hincident]; simp))
    refine .spares (.change hn hmem (hf tok).1.id hq ((hf tok).2.2 hincident (h.waits.ok tok hmem))
      (fun _ _ hactive => ?_) rfl rfl (List.subset_cons_self _ _) rfl)
    rw [hincident] at hactive
    cases hactive
  | consume tok hmem hf =>
    rw [s.removeToken_of_ne (hn.tokens.ne_empty hmem)]
    refine .spares (.drop rfl (fun t ht hp => ?_) rfl (List.Subset.refl _) rfl)
    rw [hn.tokens.eq_of_id ht hmem (by simpa using hp)]
    exact hfree tok hmem hf
  | cancel tok at_ kind => exact .spares (.cancelToken hn tok at_ kind hC')
  | park p d node scopeID kind at_ hp hsite hkind hnone => exact .spares (.parkedOn hn h hp hsite hkind)
  | fireParallel p d node scopeID consumed hp hsite hmatch =>
    have hpark : Spares top s p := .parkedOn hn h hp hsite (Or.inl rfl)
    exact .spares (hpark.trans (.fires (h.spares hpark)))
  | fireInclusive p d node scopeID consumed hp hsite htok hsub hcons =>
    have hpark : Spares top s p := .parkedOn hn h hp hsite (Or.inr rfl)
    exact .spares (hpark.trans (.fires (h.spares hpark)))
  | openScope node parent hfwd hparent hopens =>
    refine .spares (.rests ⟨rfl, rfl, [_], rfl, fun e he => ?_⟩ rfl)
    rw [List.mem_singleton.mp he]
    trivial
  | teardown scope => exact .spares ((Spares.outline (s.archiveAll_outline _)).trans (.closeScope _ scope))
  | interrupt scope =>
    have harch : Spares top s (s.archiveAll (s.subtreeIDs scope)) := .outline (s.archiveAll_outline _)
    exact .spares (harch.trans (.rests (Rests.note (Rests.same (by rfl) (by rfl) (by rfl)) (by trivial)) rfl))
  | exit scope enclosing hne htok hchild hhold =>
    have hnote : Spares top s (s.note (.exited scope enclosing s.tokens s.scopes s.compensating)) :=
      .rests ((Rests.refl s).note trivial) rfl
    exact .spares ((hnote.trans (.outline (ControlState.archiveCompensations_outline _ scope))).trans (.closeScope _ scope))
  | record scope rec hfwd hhist =>
    refine .spares ?_
    unfold ControlState.recordCompensation
    split
    · exact .rests (Rests.note (Rests.same (by rfl) (by rfl) (by rfl)) (by trivial)) rfl
    · split
      · exact .rests (Rests.refl s) rfl
      · exact (Spares.outline (s.setCompensations_outline _ _)).trans (.rests ((Rests.refl _).note trivial) rfl)
  | sweep s' hidle hsweep => exact .spares (.sweep hn hsweep hC')
  | deferThrow tok hthrow hflight => exact .defers tok hthrow hflight rfl
  | throwWalk tok at_ cur rec hthrow hfwd hidle hcur =>
    obtain ⟨v, -, he⟩ := s.mintCommand.consumeTokenAs_shape tok at_ .normal
    unfold ControlState.throwDispatch ControlState.consumeToken
    rw [he, s.mintCommand.removeToken_of_ne (hn.tokens.ne_empty hthrow.mem)]
    set q : ControlState := { ({ { s.mintCommand with tokens := s.mintCommand.tokens.filter (fun t => t.id != tok.id) } with
      history := v } : ControlState) with status := .compensating } with hq
    have hrest := Rests.dispatch q cur cur.nextIndex rec (s.nextCmdID g)
    obtain ⟨hcmd, -⟩ := dispatch_cursor q cur cur.nextIndex rec (s.nextCmdID g)
    have hnot : tok.id ∉ s.deferredCompensationThrows := by
      refine h.waits.not_queued hthrow.mem (Or.inr ?_)
      rw [hthrow.active]
      simp
    have hflight : (q.dispatch cur cur.nextIndex rec (s.nextCmdID g)).InFlight := by
      unfold InFlight
      rw [hcmd, hcur.active]
      exact inFlight_nextCmdID g s
    obtain ⟨es, htr, -⟩ := hrest.trace
    refine .spares ⟨hrest.queue, ?_, fun t ht => Or.inl ?_, fun t ht hid => ?_, fun ht => ?_, fun hf => absurd hf hidle,
      fun _ _ _ => Or.inl hflight⟩
    · rw [htr]
      exact List.subset_append_right _ _
    · rw [hrest.tokens] at ht
      exact List.mem_of_mem_filter ht
    · rw [hrest.tokens]
      refine List.mem_filter.mpr ⟨ht, ?_⟩
      rw [bne_iff_ne]
      intro heq
      exact hnot (heq ▸ hid)
    · rw [hfwd.live] at ht
      cases ht
  | next rec hflight hans hpos hto hrec =>
    have hmint : Rests s s.mintCommand := Rests.same rfl rfl rfl
    obtain ⟨hcmd, hidx⟩ := dispatch_cursor s.mintCommand { s.compensating with
      nextIndex := s.compensating.nextIndex - 1, activeCmdID := s.nextCmdID g, retryAttempts := 0, retryTimerID := "" }
      (s.compensating.nextIndex - 1) rec (s.nextCmdID g)
    refine .spares (.walks hs.phase (hmint.trans (Rests.dispatch s.mintCommand _ _ _ _)) hflight ?_ ?_)
    · unfold InFlight ControlState.advance
      rw [hcmd]
      exact inFlight_nextCmdID g s
    · unfold ControlState.advance
      rw [hidx]
      change s.compensating.nextIndex - 1 ≤ s.compensating.nextIndex
      omega
  | again rec attempts hflight hrec htrg =>
    exact .spares (.walks hs.phase (Rests.note (Rests.same (by rfl) (by rfl) (by rfl)) (by trivial)) hflight
      (inFlight_nextCmdID g s) le_rfl)
  | retryLater timerID attempts hflight => exact .spares (.rests (Rests.same rfl rfl rfl) rfl)
  | pendCancel hflight hmode =>
    exact .spares (.rests (Rests.note (Rests.same (by rfl) (by rfl) (by rfl)) (by trivial)) rfl)
  | pendFailure err hflight hfwd htok =>
    exact .spares (.rests (Rests.note (Rests.same (by rfl) (by rfl) (by rfl)) (by trivial)) rfl)
  | begin at_ o rec hidle hclear hasked hrec =>
    have hq := h.empty hclear.tokens
    exact .blank (h.rests (Rests.beginWalk g s o at_ rec)) hq hq
  | resume cur at_ hfin hres hpend hscope =>
    obtain ⟨hparked, ⟨hq, hq'⟩ | ⟨id, hq, he, hurged⟩⟩ := h.finish hn cur at_ hscope hC' rfl
    · exact .blank hparked hq hq'
    · exact .pops hparked id hq he hurged
  | pendingWalk cur at_ p rec hfin hcons hpend hsweep hclear hrec =>
    have htake := (Names.Shrinks.deleted s (finishPlan s.settled cur)).trans
      (Names.Shrinks.takePending (finishPlan s.settled cur) _)
    have hrest := (Rests.deleted s (finishPlan s.settled cur)).trans (Rests.takePending (finishPlan s.settled cur) _)
    have hbegin := Rests.beginWalk g p (pendingOutcome s) at_ rec
    have hCp : ∀ e ∈ p.trace, e.keepsQueue = true := fun e he => hC' e (List.mem_cons_of_mem _ he)
    obtain ⟨hp, hqp⟩ := (h.rests hrest).sweeps (hn.of_shrinks htake) hsweep hCp
    have hq := hp.empty hclear.tokens
    exact .blank (hp.rests hbegin) (hrest.queue.symm.trans (hqp.symm.trans hq)) (hbegin.queue.trans hq)

theorem Shift.queued (hn : Names g s) (h : Queued top s) (hshift : Shift top s s') : Queued top s' := by
  cases hshift with
  | spares hsp =>
    refine ⟨h.toParked.spares hsp, fun hlive hne => ?_⟩
    rw [hsp.queue] at hne
    have hlive' : s.status.isTerminal = false := by
      by_contra hterm
      rw [Bool.not_eq_false] at hterm
      rw [hsp.terminal hterm] at hlive
      cases hlive
    by_cases hf : s.InFlight
    · exact Or.inl (hsp.flight hf).1
    · exact hsp.urged hne hf ((h.moving hlive' hne).resolve_left hf)
  | defers tok hthrow hflight he =>
    subst he
    exact ⟨h.toParked.defer hn hthrow, fun _ _ => Or.inl hflight⟩
  | pops hparked id hq he hurged => exact ⟨hparked, fun _ _ => Or.inr hurged⟩
  | blank hparked hq hq' => exact ⟨hparked, fun _ hne => absurd hq' hne⟩

theorem End.parked (hs : Wf g s) (hC' : ∀ e ∈ s'.trace, e.keepsQueue = true) (h : Parked top s) (hend : End trg s s') :
    Parked top s' := by
  obtain ⟨m, p, hm, hshrinks, hsweep, hp⟩ := hend.swept
  obtain ⟨es, he, -⟩ := hp.trace
  have hCp : ∀ e ∈ p.trace, e.keepsQueue = true := fun e hmem => hC' e (he ▸ List.mem_append_right es hmem)
  exact ((h.rests hm).sweeps (hs.names.of_shrinks hshrinks) hsweep hCp).1.rests hp

theorem End.queued (hs : Wf g s) (hC' : ∀ e ∈ s'.trace, e.keepsQueue = true) (h : Queued top s) (hend : End trg s s') :
    Queued top s' := by
  refine ⟨hend.parked hs hC' h.toParked, fun hlive => ?_⟩
  rw [hend.terminal hs.phase] at hlive
  cases hlive

/-! ## Turns -/

/-- The throw is taken up, or comes nearer to its turn, or keeps its place in the queue and the walk in flight goes no step
back. -/
inductive Nears (id : String) (s s' : ControlState) : Prop
  | taken (h : Event.reactivated id ∈ since s s')
  | nearer (h : id ∈ s'.deferredCompensationThrows)
      (hlt : s'.deferredCompensationThrows.idxOf id < s.deferredCompensationThrows.idxOf id)
  | same (h : id ∈ s'.deferredCompensationThrows)
      (heq : s'.deferredCompensationThrows.idxOf id = s.deferredCompensationThrows.idxOf id)
      (hwalk : s.InFlight → s'.InFlight ∧ s'.compensating.nextIndex ≤ s.compensating.nextIndex)

theorem Nears.refl {id : String} (h : id ∈ s.deferredCompensationThrows) :
    Nears id s s := .same h rfl (fun hf => ⟨hf, le_rfl⟩)

theorem Nears.trans {id : String} {s1 : ControlState} (hlogs : Logs true top g s s1) (hlogs' : Logs true top g s1 s')
    (h : Nears id s s1) (h' : id ∈ s1.deferredCompensationThrows → Nears id s1 s') : Nears id s s' := by
  have hsince := hlogs.since_trans hlogs'
  cases h with
  | taken he =>
    refine .taken ?_
    rw [hsince]
    exact List.mem_append_right _ he
  | nearer hid hlt =>
    cases h' hid with
    | taken he =>
      refine .taken ?_
      rw [hsince]
      exact List.mem_append_left _ he
    | nearer hid' hlt' => exact .nearer hid' (hlt'.trans hlt)
    | same hid' heq _ => exact .nearer hid' (heq ▸ hlt)
  | same hid heq hwalk =>
    cases h' hid with
    | taken he =>
      refine .taken ?_
      rw [hsince]
      exact List.mem_append_left _ he
    | nearer hid' hlt' => exact .nearer hid' (heq ▸ hlt')
    | same hid' heq' hwalk' =>
      refine .same hid' (heq'.trans heq) (fun hf => ?_)
      obtain ⟨hf1, hle⟩ := hwalk hf
      exact ⟨(hwalk' hf1).1, (hwalk' hf1).2.trans hle⟩

theorem Shift.nears (h : Shift top s s') {id : String} (hid : id ∈ s.deferredCompensationThrows) : Nears id s s' := by
  cases h with
  | spares hsp =>
    refine .same (hsp.queue ▸ hid) (by rw [hsp.queue]) hsp.flight
  | defers tok hthrow hflight he =>
    subst he
    refine .same (List.mem_append_left _ hid) ?_ (fun hf => ⟨hf, le_rfl⟩)
    exact List.idxOf_append_of_mem hid
  | pops hparked id' hq he hurged =>
    rw [hq] at hid
    by_cases heq : id = id'
    · exact .taken (heq ▸ he)
    · have hin : id ∈ s'.deferredCompensationThrows := (List.mem_cons.mp hid).resolve_left heq
      refine .nearer hin ?_
      rw [hq, List.idxOf_cons_ne _ (Ne.symm heq)]
      exact Nat.lt_succ_self _
  | blank hparked hq hq' =>
    rw [hq] at hid
    cases hid

/-- Along the moves of a step the throws keep their order. -/
theorem Moves.nears (hs : Wf g s) (h : Queued top s) (hmoves : Moves top g trg s s')
    (hC : ∀ e ∈ s'.trace, e.keepsQueue = true) :
    Queued top s' ∧ ∀ id ∈ s.deferredCompensationThrows, Nears id s s' := by
  induction hmoves with
  | refl => exact ⟨h, fun id hid => .refl hid⟩
  | @tail m p hpre hmove ih =>
    have hwf := Moves.wf hs hpre
    have hlogs : Logs true top g m p := hmove.logs hwf
    obtain ⟨hm, hnears⟩ := ih (fun e he => hC e (hlogs.subset he))
    have hshift := hmove.shift hwf hC hm.toParked
    exact ⟨hshift.queued hwf.names hm, fun id hid =>
      (hnears id hid).trans (Moves.logs hs hpre) hlogs (fun hid' => hshift.nears hid')⟩

end Moves

/-! ## Answers -/

/-- The throw is taken up, or comes nearer to its turn, or keeps its place while the walk in flight goes a step on. -/
inductive Gains (id : String) (s s' : ControlState) : Prop
  | taken (h : Event.reactivated id ∈ since s s')
  | nearer (h : id ∈ s'.deferredCompensationThrows)
      (hlt : s'.deferredCompensationThrows.idxOf id < s.deferredCompensationThrows.idxOf id)
  | onward (h : id ∈ s'.deferredCompensationThrows)
      (heq : s'.deferredCompensationThrows.idxOf id = s.deferredCompensationThrows.idxOf id)
      (hlt : s'.compensating.nextIndex.toNat < s.compensating.nextIndex.toNat)

section Answers
variable {c : StepCtx} {drv : DriveLoop} {trg : TriggerBody} {x : InstanceState} {r : StepResult}
  {id : String}

/-- The last answer of a walk, with no cancel pending, makes the turn go on. -/
theorem finish_gains (hdrv : Drives c trg drv) (hs : Wf c.ids x.toControlState) (h : Queued c.top x.toControlState)
    (hflight : x.toControlState.InFlight) (hans : Answers x.toControlState trg ∧ Exhausted x.toControlState)
    (hpend : x.pendingCancel = false) (hr : stepCompensationFinish drv c x x.compensating.toNode = .ok r)
    (hlive : r.state.status.isTerminal = false) (hC : ∀ e ∈ r.state.trace, e.keepsQueue = true)
    (hid : id ∈ x.deferredCompensationThrows) : Gains id x.toControlState r.state.toControlState := by
  unfold stepCompensationFinish at hr
  by_cases hmode : x.compensating.walkMode = .admin
  · exfalso
    have he := finish_admin hmode hr
    have hend := End.terminate x.compensating (Finishing.walk hflight (Or.inl hans)) hmode
    rw [← he] at hend
    rw [hend.terminal hs.phase] at hlive
    cases hlive
  · obtain ⟨r', h', rfl⟩ := map_prepend_ok hr
    rw [StepResult.prepend_state] at hlive hC ⊢
    have hplan : finishPlan (cancelCompensationWalkTimers
        (x.onControl (fun s => { s with compensating := {} }))).state.toControlState x.compensating =
        finishPlan x.toControlState.settled x.compensating := rfl
    have hres := finishPlan_resume x.toControlState.settled hmode
    have hcur : ({ x.compensating with toNode := x.compensating.toNode } : CompensationCursor) = x.compensating := rfl
    rw [hcur, hplan] at h'
    have hctl : (cancelCompensationWalkTimers (x.onControl (fun s => { s with compensating := {} }))).state.toControlState =
        x.toControlState.settled := rfl
    generalize (cancelCompensationWalkTimers (x.onControl (fun s => { s with compensating := {} }))).state = y at *
    have hpc : (y.onControl (applyDeleteArchive (finishPlan x.toControlState.settled x.compensating))).pendingCancel =
        false := by
      rw [InstanceState.onControl_toControlState, hctl]
      exact (sameOutline (applyDeleteArchive_outline _ x.toControlState.settled)).pendingCancel.trans hpend
    unfold applyFinishWith at h'
    dsimp only at h'
    rw [hres, hpc] at h'
    simp only [Bool.true_and, Bool.and_false, Bool.not_true, Bool.false_eq_true, if_false] at h'
    have hscope : x.toControlState.ScopeRef c.ids x.compensating.resumeScope := hs.names.resume
    have hmove : Move c.top c.ids trg x.toControlState _ := Move.resume x.compensating c.at_
      (Finishing.walk hflight (Or.inl hans)) hres (fun _ => hpend) hscope
    generalize hz : ({ y.onControl (applyDeleteArchive (finishPlan x.toControlState.settled x.compensating)) with
        endedAt := none
        vars := resumeVars (finishPlan x.toControlState.settled x.compensating)
          (y.onControl (applyDeleteArchive (finishPlan x.toControlState.settled x.compensating)))
      }.onControl (resumeControl c.ids c.at_ (finishPlan x.toControlState.settled x.compensating))) = z at h'
    have hzc : z.toControlState = resumeControl c.ids c.at_ (finishPlan x.toControlState.settled x.compensating)
        (applyDeleteArchive (finishPlan x.toControlState.settled x.compensating) x.toControlState.settled) := by
      rw [← hz, InstanceState.onControl_toControlState]
      change resumeControl c.ids c.at_ _ (y.onControl (applyDeleteArchive _)).toControlState = _
      rw [InstanceState.onControl_toControlState, hctl]
    obtain ⟨hzst, -, -, -⟩ := resumeControl_fields c.ids c.at_ (finishPlan x.toControlState.settled x.compensating)
      (applyDeleteArchive (finishPlan x.toControlState.settled x.compensating) x.toControlState.settled)
    have hzlive : z.toControlState.status.isTerminal = false := by
      rw [hzc, hzst]
      rfl
    split at h'
    · exfalso
      rw [← Except.ok.inj h', InstanceState.complete_control, endControl_ended] at hlive
      cases hlive
    · obtain ⟨r1, h1, h'⟩ := bind_ok h'
      obtain ⟨r2, h2, h'⟩ := bind_ok h'
      rw [← Except.ok.inj h', StepResult.prepend_state] at hlive hC ⊢
      have hzwf : Wf c.ids z.toControlState := by
        rw [hzc]
        exact hmove.wf hs
      have hreach := hdrv.reaches hzwf hzlive (rearmRoot_control h1 ▸ Relation.ReflTransGen.refl) h2
      have hmoves := hreach.moves hzwf hlive
      have hlogs : Logs true c.top c.ids z.toControlState r2.state.toControlState := Moves.logs hzwf hmoves
      have hCz : ∀ e ∈ z.trace, e.keepsQueue = true := fun e he => hC e (hlogs.subset he)
      have hlogs0 : Logs true c.top c.ids x.toControlState z.toControlState := by
        rw [hzc]
        exact hmove.logs hs
      have hmove' : Move c.top c.ids trg x.toControlState z.toControlState := hzc ▸ hmove
      have hz' : Queued c.top z.toControlState := (hmove'.shift hs hCz h.toParked).queued hs.names h
      obtain ⟨-, hnears⟩ := Moves.nears hzwf hz' hmoves hC
      have hCz' := hCz
      rw [hzc] at hCz'
      -- the head of the queue is taken up, the others come nearer
      obtain ⟨-, ⟨hq, -⟩ | ⟨id', hq, he, -⟩⟩ := h.toParked.finish hs.names x.compensating c.at_ hscope hCz' hzc
      · rw [hq] at hid
        cases hid
      · have hsince := hlogs0.since_trans hlogs
        rw [hq] at hid
        by_cases heq : id = id'
        · refine .taken ?_
          rw [hsince, heq]
          exact List.mem_append_right _ he
        · have hin : id ∈ z.deferredCompensationThrows := (List.mem_cons.mp hid).resolve_left heq
          have hidx : x.deferredCompensationThrows.idxOf id = z.deferredCompensationThrows.idxOf id + 1 := by
            rw [hq, List.idxOf_cons_ne _ (Ne.symm heq)]
          cases hnears id hin with
          | taken he' =>
            refine .taken ?_
            rw [hsince]
            exact List.mem_append_left _ he'
          | nearer hin' hlt => exact .nearer hin' (by omega)
          | same hin' heq' _ => exact .nearer hin' (by omega)

/-- An answered command of the walk makes the turn go on. -/
theorem advance_gains (hdrv : Drives c trg drv) (hs : Wf c.ids x.toControlState) (h : Queued c.top x.toControlState)
    (hflight : x.toControlState.InFlight) (hans : Answers x.toControlState trg) (hpend : x.pendingCancel = false)
    (hr : stepCompensationAdvance drv c x = .ok r) (hlive : r.state.status.isTerminal = false)
    (hC : ∀ e ∈ r.state.trace, e.keepsQueue = true) (hid : id ∈ x.deferredCompensationThrows) :
    Gains id x.toControlState r.state.toControlState := by
  have hctl := x.retireCompensationStallIncidents_control x.compensating.activeCmdID
  unfold stepCompensationAdvance at hr
  dsimp only at hr
  generalize (x.retireCompensationStallIncidents x.compensating.activeCmdID) = y at hr hctl
  rw [← show y.toControlState = x.toControlState from hctl] at hs h hflight hans hpend hid hr ⊢
  have hfinish : Exhausted y.toControlState → stepCompensationFinish drv c y y.compensating.toNode = .ok r →
      Gains id y.toControlState r.state.toControlState := fun hex hr =>
    finish_gains hdrv hs h hflight ⟨hans, hex⟩ hpend hr hlive hC hid
  split at hr
  · rename_i hdone
    refine hfinish ?_ hr
    rw [Bool.or_eq_true, decide_eq_true_eq, decide_eq_true_eq] at hdone
    rcases hdone with h1 | h1
    · exact Or.inl (by omega)
    · exact Or.inr (Or.inr h1)
  · rename_i hmore
    rw [Bool.or_eq_true, decide_eq_true_eq, decide_eq_true_eq, not_or] at hmore
    split at hr
    · rename_i hnone
      refine hfinish (Or.inr (Or.inl ?_)) hr
      have hlen := List.getElem?_eq_none_iff.mp hnone
      omega
    · rename_i rec hrec
      rw [← Except.ok.inj hr, afterDispatch_control, InstanceState.onControl_toControlState,
        InstanceState.nextCommandID_control, InstanceState.nextCommandID_id]
      obtain ⟨-, hidx⟩ := dispatch_cursor y.toControlState.mintCommand { y.compensating with
        nextIndex := y.compensating.nextIndex - 1, activeCmdID := y.toControlState.nextCmdID c.ids, retryAttempts := 0
        retryTimerID := "" } (y.compensating.nextIndex - 1) rec (y.toControlState.nextCmdID c.ids)
      have hqueue := (Rests.dispatch y.toControlState.mintCommand { y.compensating with
        nextIndex := y.compensating.nextIndex - 1, activeCmdID := y.toControlState.nextCmdID c.ids, retryAttempts := 0
        retryTimerID := "" } (y.compensating.nextIndex - 1) rec (y.toControlState.nextCmdID c.ids)).queue
      refine .onward ?_ ?_ ?_
      · rw [hqueue]
        exact hid
      · rw [hqueue]
        rfl
      · rw [hidx]
        change (y.compensating.nextIndex - 1).toNat < y.compensating.nextIndex.toNat
        have hpos := hmore.1
        omega

end Answers

/-! ## Runs -/

/-- The instance lives on for ever, step after step, with no cancel pending, and the command of a walk in flight is
answered sooner or later. -/
structure LivesOn (p : ProcessDefinition) (gen : Option IDGenerator) (next : Nat → Call) (xs : Nat → InstanceState) :
    Prop where
  step : ∀ n, ∃ r, step (next n).fuel p (xs n) (next n).trigger (next n).opt = .ok r ∧ r.state = xs (n + 1)
  gen : ∀ n, (next n).opt.idGenerator = gen
  live : ∀ n, (xs n).status.isTerminal = false
  uncancelled : ∀ n, (xs n).pendingCancel = false
  answered : ∀ n, (xs n).toControlState.InFlight → ∃ m ≥ n, ∃ output,
    (next m).trigger.body = .actionCompleted (xs m).compensating.activeCmdID output

section Runs
variable {p : ProcessDefinition} {gen : Option IDGenerator} {inst : String} {calls : List Call} {x : InstanceState}
  {call : Call} {r : StepResult} {id : String}

theorem queued_start (top : ProcessDefinition) (inst : String) : Queued top { instanceID := inst } :=
  ⟨⟨⟨by simp, by simp, List.nodup_nil⟩, by simp⟩, by simp⟩

theorem queued_run (hrun : Run p gen inst calls x) (hkeeps : ∀ e ∈ x.trace, e.keepsQueue = true) :
    Queued p x.toControlState := by
  refine Run.induction (I := Queued p) (P := fun _ => True) (C := fun e => e.keepsQueue = true) hrun (fun _ _ => trivial)
    hkeeps (queued_start p inst) ?_ ?_
  · intro trg s s' hs _ hC h hmove
    exact (hmove.shift hs hC h.toParked).queued hs.names h
  · intro trg s s' hs _ hC h hend
    exact hend.queued hs hC h

theorem step_nears (hrun : Run p gen inst calls x) (hgen : call.opt.idGenerator = gen)
    (hstep : step call.fuel p x call.trigger call.opt = .ok r) (hlive : r.state.status.isTerminal = false)
    (hkeeps : ∀ e ∈ r.state.trace, e.keepsQueue = true) (hid : id ∈ x.deferredCompensationThrows) :
    Nears id x.toControlState r.state.toControlState := by
  have hreach := hrun.sound.reaches hgen hstep
  have hlogs := Reaches.logs hrun.sound.wf hreach
  have hq := queued_run hrun (fun e he => hkeeps e (hlogs.subset he))
  exact (Moves.nears hrun.sound.wf hq (hreach.moves hrun.sound.wf hlive) hkeeps).2 id hid

/-- An answer to the walk's command makes the turn of every queued throw go on. -/
theorem step_gains (hrun : Run p gen inst calls x) (hgen : call.opt.idGenerator = gen) {output : Vars}
    (htrg : call.trigger.body = .actionCompleted x.compensating.activeCmdID output)
    (hstep : step call.fuel p x call.trigger call.opt = .ok r) (hflight : x.toControlState.InFlight)
    (hpend : x.pendingCancel = false) (hlive : r.state.status.isTerminal = false)
    (hkeeps : ∀ e ∈ r.state.trace, e.keepsQueue = true) (hid : id ∈ x.deferredCompensationThrows) :
    Gains id x.toControlState r.state.toControlState := by
  have hx := hrun.sound
  have hlogs := Reaches.logs hx.wf (hx.reaches hgen hstep)
  have hq := queued_run hrun (fun e he => hkeeps e (hlogs.subset he))
  have hids : call.opt.ids x.instanceID = runIDs gen inst := by
    unfold StepOptions.ids runIDs
    rw [hgen, hx.instanceID]
  have hwf : Wf (stepCtx p x call.trigger call.opt).ids x.toControlState := by
    change Wf (call.opt.ids x.instanceID) x.toControlState
    rw [hids]
    exact hx.wf
  have hst : x.status = .compensating := hx.wf.phase.status.mpr hflight
  obtain ⟨r', h', rfl⟩ := step_dispatch hstep
  rw [dropStaleTokenCommands_control] at hlive hkeeps ⊢
  have hdrv : Drives (stepCtx p x call.trigger call.opt) (.actionCompleted x.compensating.activeCmdID output)
      (drive (stepCtx p x call.trigger call.opt) call.fuel) := drive_drives call.fuel
  rw [htrg] at h'
  unfold dispatch at h'
  rw [if_neg (not_terminal hst)] at h'
  unfold handle handleActionCompleted at h'
  dsimp only at h'
  rw [if_pos (by rw [hst]; simp)] at h'
  have hctl := x.retireCompensationFailedIncidents_control x.compensating.activeCmdID
  have hans : Answers x.toControlState (.actionCompleted x.compensating.activeCmdID output) := rfl
  generalize x.retireCompensationFailedIncidents x.compensating.activeCmdID = y at h' hctl
  rw [← show y.toControlState = x.toControlState from hctl] at hwf hq hflight hpend hid ⊢
  have hans' : Answers y.toControlState (.actionCompleted x.compensating.activeCmdID output) := by
    rw [hctl]
    exact hans
  exact advance_gains hdrv hwf hq hflight hans' hpend h' hlive hkeeps hid

section LivesOn
variable {next : Nat → Call} {xs : Nat → InstanceState}

theorem LivesOn.run (h : LivesOn p gen next xs) (hrun : Run p gen inst calls (xs 0)) (n : Nat) :
    Run p gen inst (calls ++ (List.range n).map next) (xs n) := by
  induction n with
  | zero =>
    rw [List.range_zero, List.map_nil, List.append_nil]
    exact hrun
  | succ n ih =>
    obtain ⟨r, hstep, hr⟩ := h.step n
    rw [List.range_succ, List.map_append, ← List.append_assoc, ← hr]
    exact Steps.tail ih (next n) r (h.gen n) hstep

theorem LivesOn.logs (h : LivesOn p gen next xs) (hrun : Run p gen inst calls (xs 0)) {n m : Nat} (hnm : n ≤ m) :
    Logs true p (runIDs gen inst) (xs n).toControlState (xs m).toControlState := by
  induction m, hnm using Nat.le_induction with
  | base => exact Logs.same rfl
  | succ m _ ih =>
    obtain ⟨r, hstep, hr⟩ := h.step m
    have hm := (h.run hrun m).sound
    have hlogs := Reaches.logs hm.wf (hm.reaches (h.gen m) hstep)
    rw [hr] at hlogs
    exact ih.trans hlogs

theorem LivesOn.nears (h : LivesOn p gen next xs) (hrun : Run p gen inst calls (xs 0))
    (hkeeps : ∀ n, ∀ e ∈ (xs n).trace, e.keepsQueue = true) {n m : Nat} (hnm : n ≤ m)
    (hid : id ∈ (xs n).deferredCompensationThrows) : Nears id (xs n).toControlState (xs m).toControlState := by
  induction m, hnm using Nat.le_induction with
  | base => exact .refl hid
  | succ m hnm ih =>
    obtain ⟨r, hstep, hr⟩ := h.step m
    refine ih.trans (h.logs hrun hnm) (h.logs hrun (Nat.le_succ m)) (fun hid' => ?_)
    have hnears := step_nears (h.run hrun m) (h.gen m) hstep (hr ▸ h.live (m + 1)) (hr ▸ hkeeps (m + 1)) hid'
    rw [hr] at hnears
    exact hnears

/-- Every queued throw is taken up in the end. -/
theorem LivesOn.taken (h : LivesOn p gen next xs) (hrun : Run p gen inst calls (xs 0))
    (hkeeps : ∀ n, ∀ e ∈ (xs n).trace, e.keepsQueue = true)
    (hwalks : ∀ n, (xs n).deferredCompensationThrows ≠ [] → (xs n).toControlState.InFlight) :
    ∀ i k n, (xs n).deferredCompensationThrows.idxOf id = i → (xs n).compensating.nextIndex.toNat = k →
      id ∈ (xs n).deferredCompensationThrows →
        ∃ m ≥ n, Event.reactivated id ∈ since (xs n).toControlState (xs m).toControlState := by
  intro i
  induction i using Nat.strong_induction_on with
  | _ i ihi =>
  intro k
  induction k using Nat.strong_induction_on with
  | _ k ihk =>
  intro n hi hk hid
  obtain ⟨m, hnm, output, htrg⟩ := h.answered n (hwalks n (List.ne_nil_of_mem hid))
  have hlogs := h.logs hrun hnm
  have hlogs1 := h.logs hrun (Nat.le_succ m)
  -- what happens from a later state on happens from here on
  have hlater : ∀ j, n ≤ j → (∃ l ≥ j, Event.reactivated id ∈ since (xs j).toControlState (xs l).toControlState) →
      ∃ l ≥ n, Event.reactivated id ∈ since (xs n).toControlState (xs l).toControlState := by
    rintro j hnj ⟨l, hjl, he⟩
    refine ⟨l, hnj.trans hjl, ?_⟩
    rw [(h.logs hrun hnj).since_trans (h.logs hrun hjl)]
    exact List.mem_append_left _ he
  cases h.nears hrun hkeeps hnm hid with
  | taken he => exact ⟨m, hnm, he⟩
  | nearer hid' hlt => exact hlater m hnm (ihi _ (hi ▸ hlt) _ m rfl rfl hid')
  | same hid' heq hwalk =>
    obtain ⟨hflight, hle⟩ := hwalk (hwalks n (List.ne_nil_of_mem hid))
    obtain ⟨r, hstep, hr⟩ := h.step m
    have hgains := step_gains (h.run hrun m) (h.gen m) htrg hstep hflight (h.uncancelled m) (hr ▸ h.live (m + 1))
      (hr ▸ hkeeps (m + 1)) hid'
    rw [hr] at hgains
    have hnm1 : n ≤ m + 1 := hnm.trans (Nat.le_succ m)
    cases hgains with
    | taken he => exact hlater m hnm ⟨m + 1, Nat.le_succ m, he⟩
    | nearer hid1 hlt => exact hlater (m + 1) hnm1 (ihi _ (by omega) _ (m + 1) rfl rfl hid1)
    | onward hid1 heq1 hlt =>
      refine hlater (m + 1) hnm1 (ihk _ ?_ (m + 1) (by omega) rfl hid1)
      have hle' := Int.toNat_le_toNat hle
      omega

end LivesOn

/-- A live instance in a run of macro steps that leaves the queue to its walks. -/
theorem walks_of_queued (hrun : Run p gen inst calls x) (hmodes : ∀ call ∈ calls, call.opt.mode = .macroStep)
    (hkeeps : ∀ e ∈ x.trace, e.keepsQueue = true) (hlive : x.status.isTerminal = false)
    (hq : x.deferredCompensationThrows ≠ []) : x.toControlState.InFlight := by
  rcases (queued_run hrun hkeeps).moving hlive hq with hf | ⟨t, ht, hactive, -⟩
  · exact hf
  · exact absurd hactive ((settled_run hrun hmodes hlive).still t ht)

/-- The throw has not been taken up by then. -/
def Unturned (id : String) (xs : Nat → InstanceState) (n : Nat) : Prop :=
  Event.reactivated id ∉ since (xs 0).toControlState (xs n).toControlState

/-- The calls go on from a state by macro steps, and as long as the throw is not taken up the queue is left to the walks, the
instance has not ended, no cancel is pending and the command of a walk in flight is answered sooner or later. -/
structure GoesOnFor (p : ProcessDefinition) (gen : Option IDGenerator) (id : String) (next : Nat → Call)
    (xs : Nat → InstanceState) : Prop where
  gen : ∀ n, (next n).opt.idGenerator = gen
  step : ∀ n, Unturned id xs n → (next n).opt.mode = .macroStep ∧
    ∃ r, step (next n).fuel p (xs n) (next n).trigger (next n).opt = .ok r ∧ r.state = xs (n + 1)
  keeps : ∀ n, Unturned id xs n → ∀ e ∈ (xs n).trace, e.keepsQueue = true
  live : ∀ n, Unturned id xs n → (xs n).status.isTerminal = false
  uncancelled : ∀ n, Unturned id xs n → (xs n).pendingCancel = false
  answered : ∀ n, Unturned id xs n → (xs n).toControlState.InFlight → ∃ m ≥ n, Unturned id xs m → ∃ output,
    (next m).trigger.body = .actionCompleted (xs m).compensating.activeCmdID output

/-- In a run of macro steps that leaves the queue to its walks, throws are queued on a live instance only while a walk is in
flight, every queued id is that of a token that waits at a throw, and where calls go on for a queued throw, it is taken up. -/
theorem deferred_throws_drain (hrun : Run p gen inst calls x) (hmodes : ∀ call ∈ calls, call.opt.mode = .macroStep)
    (hkeeps : ∀ e ∈ x.trace, e.keepsQueue = true) (hlive : x.status.isTerminal = false) :
    (x.deferredCompensationThrows ≠ [] → x.toControlState.InFlight) ∧
    (∀ id ∈ x.deferredCompensationThrows, ∃ t ∈ x.tokens, t.id = id ∧ t.state = .waiting ∧ ¬ t.Awaits ∧
      OnThrow p x.trace t) ∧
    ∀ id ∈ x.deferredCompensationThrows, ∀ next xs, xs 0 = x → GoesOnFor p gen id next xs →
      ∃ n, Event.reactivated id ∈ since x.toControlState (xs n).toControlState := by
  have hqueued := queued_run hrun hkeeps
  refine ⟨walks_of_queued hrun hmodes hkeeps hlive, fun id hid => ?_, ?_⟩
  · obtain ⟨t, ht, rfl, hon⟩ := hqueued.parked id hid
    exact ⟨t, ht, rfl, (hqueued.waits.queued t ht hid).1, (hqueued.waits.queued t ht hid).2, hon⟩
  · rintro id hid next xs rfl hgoes
    -- a throw that is never taken up would be one the instance lives on for, and is taken up
    by_contra hnever
    have hun : ∀ n, Unturned id xs n := fun n hn => hnever ⟨n, hn⟩
    have hall : ∀ n, ∀ e ∈ (xs n).trace, e.keepsQueue = true := fun n => hgoes.keeps n (hun n)
    have hon : LivesOn p gen next xs := by
      refine ⟨fun n => (hgoes.step n (hun n)).2, hgoes.gen, fun n => hgoes.live n (hun n), fun n =>
        hgoes.uncancelled n (hun n), ?_⟩
      intro n hflight
      obtain ⟨m, hnm, hm⟩ := hgoes.answered n (hun n) hflight
      exact ⟨m, hnm, hm (hun m)⟩
    have hwalks : ∀ n, (xs n).deferredCompensationThrows ≠ [] → (xs n).toControlState.InFlight := by
      intro n
      refine walks_of_queued (hon.run hrun n) (fun call hc => ?_) (hall n) (hon.live n)
      rcases List.mem_append.mp hc with hc | hc
      · exact hmodes call hc
      · obtain ⟨k, -, rfl⟩ := List.mem_map.mp hc
        exact (hgoes.step k (hun k)).1
    obtain ⟨m, -, he⟩ := hon.taken hrun hall hwalks _ _ 0 rfl rfl hid
    exact hnever ⟨m, he⟩

end Runs

/-! ## Throws with one record -/

/-- Two throws side by side, after a task that can be undone. -/
def twoThrows : ProcessDefinition where
  id := "throws"
  version := 1
  nodes := [startNode "s", serviceNode "a" "undo", forkNode "g",
    { id := "x1", spec := .compensationThrowEvent {} }, { id := "x2", spec := .compensationThrowEvent {} },
    endNode "e1", endNode "e2"]
  flows := [flowOf "f1" "s" "a", flowOf "f2" "a" "g", flowOf "f3" "g" "x1", flowOf "f4" "g" "x2",
    flowOf "f5" "x1" "e1", flowOf "f6" "x2" "e2"]

/-- Three throws side by side, after a task that can be undone. -/
def throwsBeside : ProcessDefinition where
  id := "throws"
  version := 1
  nodes := [startNode "s", serviceNode "a" "undo", forkNode "g",
    { id := "x1", spec := .compensationThrowEvent {} }, { id := "x2", spec := .compensationThrowEvent {} },
    { id := "x3", spec := .compensationThrowEvent {} },
    endNode "e1", endNode "e2", endNode "e3"]
  flows := [flowOf "f1" "s" "a", flowOf "f2" "a" "g", flowOf "f3" "g" "x1", flowOf "f4" "g" "x2", flowOf "f5" "g" "x3",
    flowOf "f6" "x1" "e1", flowOf "f7" "x2" "e2", flowOf "f8" "x3" "e3"]

theorem callsFrom_mode (n : Nat) (trgs : List TriggerBody) : ∀ call ∈ callsFrom n trgs, call.opt.mode = .macroStep := by
  induction trgs generalizing n with
  | nil => simp [callsFrom]
  | cons t trgs ih =>
    intro call hc
    unfold callsFrom at hc
    rcases List.mem_cons.mp hc with rfl | hc
    · rfl
    · exact ih (n + 1) call hc

def Event.takesUp (id : String) : Event → Bool
  | .reactivated id' => id' == id
  | _ => false

theorem takesUp_eq {id : String} {e : Event} (h : e.takesUp id = true) : e = .reactivated id := by
  unfold Event.takesUp at h
  split at h
  · exact congrArg Event.reactivated (beq_iff_eq.mp h)
  · cases h

/-- The first throw's walk is in flight and the second throw is queued behind it; the walk's command is answered, the second
throw is taken up, finds nothing to undo, and the instance completes. -/
theorem queued_throws_drain : ∃ x next xs,
    Run twoThrows none "i" (callsFrom 1 [.startInstance [] "", .actionCompleted "i-c1" []]) x ∧
    x.deferredCompensationThrows = ["i-t3"] ∧ x.toControlState.InFlight ∧
    (∃ t ∈ x.tokens, t.id = "i-t3" ∧ t.state = .waiting ∧ ¬ t.Awaits ∧ OnThrow twoThrows x.trace t) ∧
    xs 0 = x ∧ GoesOnFor twoThrows none "i-t3" next xs ∧ (xs 1).status = .completed ∧
    ∃ n, Event.reactivated "i-t3" ∈ since x.toControlState (xs n).toControlState := by
  have hplay : playsThrough twoThrows [.startInstance [] "", .actionCompleted "i-c1" []] (.actionCompleted "i-c2" []) []
      (fun x r _ => x.deferredCompensationThrows == ["i-t3"] && x.trace.all Event.keepsQueue && !x.status.isTerminal &&
        !x.pendingCancel && x.compensating.activeCmdID == "i-c2" && r.state.status == .completed &&
        (since x.toControlState r.state.toControlState).any (Event.takesUp "i-t3")) = true := by decide
  obtain ⟨x, r, -, hrun, hstep, -, hP⟩ := run_of_playsThrough hplay
  simp only [Bool.and_eq_true, beq_iff_eq, Bool.not_eq_true', List.any_eq_true] at hP
  obtain ⟨⟨⟨⟨⟨⟨hq, hkeeps⟩, hlive⟩, hcancel⟩, hcmd⟩, hdone⟩, e, he, htakes⟩ := hP
  obtain rfl := takesUp_eq htakes
  have hdrain := deferred_throws_drain hrun (callsFrom_mode 1 _) (List.all_eq_true.mp hkeeps) hlive
  let next : Nat → Call := fun _ => ⟨50, ⟨3, .actionCompleted "i-c2" []⟩, plainOptions⟩
  let xs : Nat → InstanceState := fun n => if n = 0 then x else r.state
  -- the throw has its turn in the first step
  have hfirst : ∀ n, Unturned "i-t3" xs n → n = 0 := by
    intro n hn
    by_contra hne
    refine hn ?_
    change Event.reactivated "i-t3" ∈ since x.toControlState (if n = 0 then x else r.state).toControlState
    rw [if_neg hne]
    exact he
  have hgoes : GoesOnFor twoThrows none "i-t3" next xs := by
    refine ⟨fun _ => rfl, fun n hn => ?_, fun n hn => ?_, fun n hn => ?_, fun n hn => ?_, fun n hn _ =>
      ⟨n, le_rfl, fun _ => ⟨[], ?_⟩⟩⟩
    all_goals obtain rfl := hfirst n hn
    · exact ⟨rfl, r, hstep, rfl⟩
    · exact List.all_eq_true.mp hkeeps
    · exact hlive
    · exact hcancel
    · change TriggerBody.actionCompleted "i-c2" [] = .actionCompleted x.compensating.activeCmdID []
      rw [hcmd]
  have hmem : "i-t3" ∈ x.deferredCompensationThrows := by
    rw [hq]
    exact List.mem_singleton.mpr rfl
  exact ⟨x, next, xs, hrun, hq, hdrain.1 (List.ne_nil_of_mem hmem), hdrain.2.1 "i-t3" hmem, rfl, hgoes, hdone,
    hdrain.2.2 "i-t3" hmem next xs rfl hgoes⟩

/-- The second throw finds nothing to undo and passes: the third stays queued with no walk in flight. -/
theorem throw_left_queued : Accepted asciiTables throwsBeside ∧ ∃ x calls, Run throwsBeside none "i" calls x ∧
    (∀ call ∈ calls, call.opt.mode = .macroStep) ∧ x.status.isTerminal = false ∧
    x.deferredCompensationThrows ≠ [] ∧ ¬ x.toControlState.InFlight := by
  have hplay : playsTo throwsBeside [.startInstance [] "", .actionCompleted "i-c1" [], .actionCompleted "i-c2" []]
      (fun x => !x.status.isTerminal && !x.deferredCompensationThrows.isEmpty && x.compensating.activeCmdID == "") =
        true := by decide
  refine ⟨by decide, ?_⟩
  obtain ⟨x, hx, hP⟩ := run_of_playsTo hplay
  rw [Bool.and_eq_true, Bool.and_eq_true, Bool.not_eq_true', Bool.not_eq_true', beq_iff_eq] at hP
  obtain ⟨⟨hlive, hq⟩, hidle⟩ := hP
  exact ⟨x, _, hx, callsFrom_mode 1 _, hlive, fun he => by simp [he] at hq, fun hf => hf hidle⟩

end Wrkflw
