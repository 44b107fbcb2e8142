import Wrkflw.Machine.Names
import Wrkflw.Machine.Quiet

/-!
# The ledger of visits

The history has an open visit for each token, at the node it stands on. `Ledger` is the invariant, with the tokens that
are on the way (`out`): their visits are closed and their next ones not yet open. One lemma per operation; a token is
only ever moved from where it stands (`At`).
-/

namespace Wrkflw

open ControlState

variable {v : NodeVisit} {flow : String} {d : ProcessDefinition}

/-! ## Histories -/

/-- The visits of nodes with a name that were not left. -/
def openVisits (history : List NodeVisit) : List NodeVisit := history.filter (fun v => v.leftAt.isNone && v.nodeID != "")

/-- What was closed stays as it was, at its place. -/
def KeepsClosed (h h' : List NodeVisit) : Prop :=
  ∀ (i : Nat) (v : NodeVisit), h[i]? = some v → v.leftAt ≠ none → h'[i]? = some v

/-- The definition of the scope has no flow that leads on from the node. -/
def DeadEnd (top : ProcessDefinition) (trace : List Event) (scopeID nodeID : String) : Prop :=
  ∃ d, ScopeDefn top trace scopeID d ∧ outgoingFlows d nodeID = []

/-- A token at the node of the scope with the flow it came by: none, or a flow into the node in the definition of the
scope. -/
def CameBy (top : ProcessDefinition) (trace : List Event) (scopeID nodeID flow : String) : Prop :=
  flow = "" ∨ ∃ d, ScopeDefn top trace scopeID d ∧ ∃ f ∈ incomingFlows d nodeID, flow = f.identity

section Histories
variable {h h' h'' : List NodeVisit}

theorem mem_openVisits : v ∈ openVisits h ↔ v ∈ h ∧ v.leftAt = none ∧ v.nodeID ≠ "" := by
  unfold openVisits
  rw [List.mem_filter, Bool.and_eq_true, Option.isNone_iff_eq_none, bne_iff_ne]

theorem openVisits_append : openVisits (h ++ h') = openVisits h ++ openVisits h' := List.filter_append ..

theorem openVisits_cons_of_open (hopen : v.leftAt = none) (hne : v.nodeID ≠ "") :
    openVisits (v :: h) = v :: openVisits h := List.filter_cons_of_pos (by simp [hopen, hne])

theorem openVisits_cons_of_left (hleft : v.leftAt ≠ none) : openVisits (v :: h) = openVisits h :=
  List.filter_cons_of_neg (by simp [Option.isNone_iff_eq_none, hleft])

theorem KeepsClosed.refl (h : List NodeVisit) : KeepsClosed h h := fun _ _ hv _ => hv

theorem KeepsClosed.trans (h1 : KeepsClosed h h') (h2 : KeepsClosed h' h'') : KeepsClosed h h'' :=
  fun i v hv hclosed => h2 i v (h1 i v hv hclosed) hclosed

theorem KeepsClosed.append (h l : List NodeVisit) : KeepsClosed h (h ++ l) := by
  intro i v hv _
  rw [List.getElem?_append_left (List.getElem?_eq_some_iff.mp hv).1]
  exact hv

/-- An open visit is rewritten. -/
theorem KeepsClosed.rewrite {pre post : List NodeVisit} (w : NodeVisit) (hopen : v.leftAt = none) :
    KeepsClosed (pre ++ v :: post) (pre ++ w :: post) := by
  intro i u hu hclosed
  rcases Nat.lt_trichotomy i pre.length with hlt | heq | hgt
  · rw [List.getElem?_append_left hlt] at hu ⊢
    exact hu
  · subst heq
    rw [List.getElem?_append_right le_rfl, Nat.sub_self, List.getElem?_cons_zero] at hu
    rw [← Option.some.inj hu] at hclosed
    exact absurd hopen hclosed
  · rw [List.getElem?_append_right hgt.le] at hu ⊢
    obtain ⟨k, hk⟩ := Nat.exists_eq_add_of_lt hgt
    have hsub : i - pre.length = k + 1 := by omega
    rw [hsub, List.getElem?_cons_succ] at hu ⊢
    exact hu

end Histories

section Scopes
variable {top : ProcessDefinition} {trace trace' : List Event} {scopeID nodeID : String}

theorem DeadEnd.mono (h : DeadEnd top trace scopeID nodeID) (hsub : trace ⊆ trace') : DeadEnd top trace' scopeID nodeID := by
  obtain ⟨d, hd, hout⟩ := h
  exact ⟨d, hd.mono hsub, hout⟩

theorem CameBy.mono (h : CameBy top trace scopeID nodeID flow) (hsub : trace ⊆ trace') :
    CameBy top trace' scopeID nodeID flow := by
  refine h.imp_right ?_
  rintro ⟨d, hd, hflow⟩
  exact ⟨d, hd.mono hsub, hflow⟩

/-- Along a flow of the scope's definition. -/
theorem CameBy.along (hd : ScopeDefn top trace scopeID d) {f : FlowRef} (hf : f ∈ flowRefs d) :
    CameBy top trace scopeID f.flow.target f.identity :=
  Or.inr ⟨d, hd, f, List.mem_filter.mpr ⟨hf, beq_self_eq_true _⟩, rfl⟩

end Scopes

theorem updateFirst_cases {α : Type} (p : α → Bool) (f : α → α) (l : List α) :
    ((∀ a ∈ l, p a = false) ∧ updateFirst p f l = l) ∨
      ∃ pre a post, l = pre ++ a :: post ∧ p a = true ∧ updateFirst p f l = pre ++ f a :: post := by
  induction l with
  | nil => exact Or.inl ⟨by simp, rfl⟩
  | cons a l ih =>
    unfold updateFirst
    by_cases ha : p a = true
    · rw [if_pos ha]
      exact Or.inr ⟨[], a, l, rfl, ha, rfl⟩
    · rw [if_neg ha]
      rcases ih with ⟨hnone, heq⟩ | ⟨pre, b, post, hl, hb, heq⟩
      · refine Or.inl ⟨fun b hb => ?_, by rw [heq]⟩
        rcases List.mem_cons.mp hb with rfl | hb
        · simpa using ha
        · exact hnone b hb
      · exact Or.inr ⟨a :: pre, b, post, by rw [hl]; rfl, hb, by rw [heq]; rfl⟩

/-- What an update of the open visit of a token at a node does. -/
theorem updateOpenVisit_cases (s : ControlState) (tokenID nodeID : String) (f : NodeVisit → NodeVisit) :
    (s.updateOpenVisit tokenID nodeID f = s ∧
      (tokenID = "" ∨ ∀ v ∈ openVisits s.history, v.tokenID = tokenID → v.nodeID ≠ nodeID)) ∨
    ∃ pre v post, s.history = pre ++ v :: post ∧ v.tokenID = tokenID ∧ v.nodeID = nodeID ∧ nodeID ≠ "" ∧ v.leftAt = none ∧
      s.updateOpenVisit tokenID nodeID f = { s with history := pre ++ f v :: post } := by
  unfold updateOpenVisit
  by_cases hempty : (tokenID == "" || nodeID == "") = true
  · rw [if_pos hempty]
    rw [Bool.or_eq_true, beq_iff_eq, beq_iff_eq] at hempty
    refine Or.inl ⟨rfl, hempty.imp_right (fun hnode v hv _ => ?_)⟩
    rw [hnode]
    exact (mem_openVisits.mp hv).2.2
  · rw [if_neg hempty]
    rw [Bool.or_eq_true, beq_iff_eq, beq_iff_eq, not_or] at hempty
    rcases updateFirst_cases (fun v : NodeVisit => v.tokenID == tokenID && v.nodeID == nodeID && v.leftAt.isNone) f
      s.history.reverse with ⟨hnone, heq⟩ | ⟨pre, v, post, hl, hv, heq⟩
    · refine Or.inl ⟨?_, Or.inr (fun v hv htok hnode => ?_)⟩
      · dsimp only
        rw [heq, List.reverse_reverse]
      · obtain ⟨hmem, hopen, -⟩ := mem_openVisits.mp hv
        have hno := hnone v (List.mem_reverse.mpr hmem)
        simp [htok, hnode, hopen] at hno
    · simp only [Bool.and_eq_true, beq_iff_eq, Option.isNone_iff_eq_none] at hv
      refine Or.inr ⟨post.reverse, v, pre.reverse, ?_, hv.1.1, hv.1.2, hempty.2, hv.2, ?_⟩
      · have hrev := congrArg List.reverse hl
        rw [List.reverse_reverse] at hrev
        rw [hrev]
        simp
      · dsimp only
        rw [heq]
        simp

/-! ## The invariant -/

/-- What the books take for granted: no trigger came before the last, and a deadline is told to a token of its scope. -/
structure Premises where
  ordered : Prop
  told : Prop

/-- The open visits are those of the tokens, one for each, but for the tokens in `out`, on nodes without a name and on dead
ends; what `h0` had closed is as it was; no visit was left before it began, if no trigger came before the last. A token came
by a flow into its node, and so will the one that a throw's walk places at its end. -/
structure Ledger (c : StepCtx) (given : Premises) (h0 : List NodeVisit) (out : List String) (s : ControlState) : Prop where
  minted : ∀ t ∈ s.tokens, Minted c.ids .token s.tokenSeq t.id
  ids : (s.tokens.map (·.id)).Nodup
  single : ((openVisits s.history).map (·.tokenID)).Nodup
  held : ∀ v ∈ openVisits s.history, ∃ t ∈ s.tokens, t.id = v.tokenID ∧ t.nodeID = v.nodeID
  gone : ∀ v ∈ openVisits s.history, v.tokenID ∉ out
  opened : ∀ sc ∈ s.scopes, Event.opened sc.id sc.nodeID sc.parentID ∈ s.trace
  shown : ∀ t ∈ s.tokens, t.id ∉ out → t.nodeID = "" ∨ DeadEnd c.top s.trace t.scopeID t.nodeID ∨
    ∃ v ∈ openVisits s.history, v.tokenID = t.id ∧ v.nodeID = t.nodeID
  kept : KeepsClosed h0 s.history
  times : given.ordered → ∀ v ∈ s.history, v.enteredAt ≤ c.at_ ∧ ∀ t, v.leftAt = some t → v.enteredAt ≤ t
  routed : given.told → ∀ t ∈ s.tokens, CameBy c.top s.trace t.scopeID t.nodeID t.arrivalFlow
  resumes : CameBy c.top s.trace s.compensating.resumeScope s.compensating.resumeNode s.compensating.resumeFlow

/-- Where a throw's walk resumes. -/
def CompensationCursor.resumesAt (cur : CompensationCursor) : String × String × String :=
  (cur.resumeScope, cur.resumeNode, cur.resumeFlow)

/-- What the ledger is about. -/
def ControlState.books (s : ControlState) : List Token × List NodeVisit × Nat × List Event × List Scope :=
  (s.tokens, s.history, s.tokenSeq, s.trace, s.scopes)

theorem booksEq {s s' : ControlState} (h : s'.books = s.books) :
    s'.tokens = s.tokens ∧ s'.history = s.history ∧ s'.tokenSeq = s.tokenSeq ∧ s'.trace = s.trace ∧ s'.scopes = s.scopes := by
  simpa [books] using h

/-- The token stands on its node. -/
def At (s : ControlState) (tok : Token) : Prop :=
  ∃ t ∈ s.tokens, t.id = tok.id ∧ t.nodeID = tok.nodeID ∧ t.scopeID = tok.scopeID

section Places
variable {s s' : ControlState} {tok : Token}

theorem At.of_mem (h : tok ∈ s.tokens) : At s tok := ⟨tok, h, rfl, rfl, rfl⟩

theorem At.of_tokens (h : At s tok) (ht : s'.tokens = s.tokens) : At s' tok := by
  unfold At
  rw [ht]
  exact h

theorem At.updateToken (h : At s tok) (id : String) {f : Token → Token}
    (hf : ∀ t : Token, (f t).id = t.id ∧ (f t).nodeID = t.nodeID ∧ (f t).scopeID = t.scopeID) :
    At (s.updateToken id f) tok := by
  obtain ⟨t, ht, hid, hnode, hscope⟩ := h
  refine ⟨if t.id == id then f t else t, List.mem_map_of_mem ht, ?_⟩
  split
  · exact ⟨(hf t).1.trans hid, (hf t).2.1.trans hnode, (hf t).2.2.trans hscope⟩
  · exact ⟨hid, hnode, hscope⟩

theorem updateOpenVisit_trace (s : ControlState) (tokenID nodeID : String) (f : NodeVisit → NodeVisit) :
    (s.updateOpenVisit tokenID nodeID f).trace = s.trace := by
  obtain ⟨v, -, he⟩ := s.updateOpenVisit_shape tokenID nodeID f
  rw [he]

theorem At.updateOpenVisit (h : At s tok) (tokenID nodeID : String) (f : NodeVisit → NodeVisit) :
    At (s.updateOpenVisit tokenID nodeID f) tok := by
  obtain ⟨v, -, he⟩ := s.updateOpenVisit_shape tokenID nodeID f
  rw [he]
  exact h

theorem At.place (h : At s tok) (g : IDGenerator) (node scope flow : String) (at_ : Time) :
    At (s.placeTokenInScope g node scope flow at_) tok := by
  obtain ⟨t, ht, hplace⟩ := h
  exact ⟨t, List.mem_append_left _ ht, hplace⟩

end Places

namespace Ledger
variable {c : StepCtx} {given : Premises} {h0 : List NodeVisit} {out : List String} {s s' : ControlState} {tok : Token}

theorem of_same (h : Ledger c given h0 out s) (ht : s'.tokens = s.tokens) (hh : s'.history = s.history)
    (hseq : s'.tokenSeq = s.tokenSeq) (htrace : s.trace ⊆ s'.trace)
    (hopen : ∀ sc ∈ s'.scopes, Event.opened sc.id sc.nodeID sc.parentID ∈ s'.trace)
    (hcur : s'.compensating.resumesAt = s.compensating.resumesAt ∨ s'.compensating.resumeFlow = "") :
    Ledger c given h0 out s' := by
  obtain ⟨hminted, hids, hsingle, hheld, hgone, -, hshown, hkept, htimes, hrouted, hresumes⟩ := h
  rw [← ht, ← hseq] at hminted
  rw [← ht] at hids hrouted
  rw [← hh] at hsingle hgone hkept htimes
  rw [← ht, ← hh] at hheld hshown
  refine ⟨hminted, hids, hsingle, hheld, hgone, hopen, fun t ht hout => ?_, hkept, htimes,
    fun hg t ht => (hrouted hg t ht).mono htrace, ?_⟩
  · exact (hshown t ht hout).imp_right (fun hs => hs.imp_left (·.mono htrace))
  · rcases hcur with hsame | hnone
    · simp only [CompensationCursor.resumesAt, Prod.mk.injEq] at hsame
      rw [hsame.1, hsame.2.1, hsame.2.2]
      exact hresumes.mono htrace
    · exact Or.inl hnone

theorem of_books (h : Ledger c given h0 out s) (hb : s'.books = s.books)
    (hcur : s'.compensating.resumesAt = s.compensating.resumesAt ∨ s'.compensating.resumeFlow = "") :
    Ledger c given h0 out s' := by
  obtain ⟨ht, hh, hseq, htrace, hscopes⟩ := booksEq hb
  refine h.of_same ht hh hseq (fun _ he => htrace.symm ▸ he) ?_ hcur
  rw [hscopes, htrace]
  exact h.opened

theorem of_outline (h : Ledger c given h0 out s) (ho : s'.outline = s.outline) : Ledger c given h0 out s' := by
  have hsame := sameOutline ho
  have hcur := congrArg CompensationCursor.resumesAt hsame.compensating
  refine h.of_same hsame.tokens hsame.history hsame.tokenSeq (fun _ he => hsame.trace.symm ▸ he)
    (fun sc hsc => ?_) (Or.inl hcur)
  obtain ⟨sc0, hsc0, hid, hnode, hparent⟩ := mem_bare hsame.scopes hsc
  rw [hsame.trace, ← hid, ← hnode, ← hparent]
  exact h.opened sc0 hsc0

theorem note (h : Ledger c given h0 out s) (e : Event) : Ledger c given h0 out (s.note e) :=
  h.of_same rfl rfl rfl (List.subset_cons_self _ _) (fun sc hsc => List.mem_cons_of_mem _ (h.opened sc hsc)) (.inl rfl)

theorem mint (h : Ledger c given h0 out s) : Ledger c given h0 out s.mintCommand := h.of_books rfl (.inl rfl)

/-- A walk goes on with the next record, or a throw's begins. -/
theorem dispatch (h : Ledger c given h0 out s) {cur : CompensationCursor}
    (hcur : CameBy c.top s.trace cur.resumeScope cur.resumeNode cur.resumeFlow) (idx : Int) (rec : CompensationRecord)
    (cmdID : String) : Ledger c given h0 out (s.dispatch cur idx rec cmdID) := by
  have hset : Ledger c given h0 out ({ s with compensating := cur }.recordCompensationDispatch cmdID) :=
    ⟨h.minted, h.ids, h.single, h.held, h.gone, h.opened, h.shown, h.kept, h.times, h.routed, hcur⟩
  exact (hset.note (.dispatched rec cmdID)).of_outline (dispatch_outline s cur idx rec cmdID)

theorem openScope (h : Ledger c given h0 out s) (nodeID parentID : String) :
    Ledger c given h0 out (s.openScope c.ids nodeID parentID).1 := by
  refine h.of_same rfl rfl rfl (List.subset_cons_self _ _) (fun sc hsc => ?_) (.inl rfl)
  rcases List.mem_append.mp hsc with hsc | hsc
  · exact List.mem_cons_of_mem _ (h.opened sc hsc)
  · rw [List.mem_singleton.mp hsc]
    exact List.mem_cons_self

theorem filterScopes (h : Ledger c given h0 out s) (p : Scope → Bool) :
    Ledger c given h0 out { s with scopes := s.scopes.filter p } :=
  h.of_same rfl rfl rfl (List.Subset.refl _) (fun sc hsc => h.opened sc (List.mem_of_mem_filter hsc)) (.inl rfl)

theorem scopeDef (h : Ledger c given h0 out s) {scopeID : String}
    (hd : defForScope c.top s.scopes scopeID = .ok d) : ScopeDefn c.top s.trace scopeID d :=
  defForScopeAux_defn h.opened hd

/-- Tokens are rewritten where they stand. -/
theorem updateToken (h : Ledger c given h0 out s) (id : String) {f : Token → Token}
    (hf : ∀ t : Token, (f t).id = t.id ∧ (f t).nodeID = t.nodeID ∧ (f t).scopeID = t.scopeID)
    (hflow : ∀ t : Token, (f t).arrivalFlow = t.arrivalFlow) :
    Ledger c given h0 out (s.updateToken id f) := by
  have hids : (s.updateToken id f).tokens.map (·.id) = s.tokens.map (·.id) := by
    change (s.tokens.map _).map _ = _
    rw [List.map_map]
    refine List.map_congr_left (fun t _ => ?_)
    change (if t.id == id then f t else t).id = t.id
    split
    · exact (hf t).1
    · rfl
  have hback : ∀ t ∈ (s.updateToken id f).tokens,
      ∃ t0 ∈ s.tokens, t0.id = t.id ∧ t0.nodeID = t.nodeID ∧ t0.scopeID = t.scopeID ∧ t0.arrivalFlow = t.arrivalFlow := by
    intro t ht
    obtain ⟨t0, ht0, rfl⟩ := List.mem_map.mp ht
    refine ⟨t0, ht0, ?_⟩
    split
    · exact ⟨(hf t0).1.symm, (hf t0).2.1.symm, (hf t0).2.2.symm, (hflow t0).symm⟩
    · exact ⟨rfl, rfl, rfl, rfl⟩
  refine ⟨fun t ht => ?_, hids ▸ h.ids, h.single, fun v hv => ?_, h.gone, h.opened, fun t ht hout => ?_, h.kept, h.times,
    fun hg t ht => ?_, h.resumes⟩
  · obtain ⟨t0, ht0, hid, -⟩ := hback t ht
    exact hid ▸ h.minted t0 ht0
  · obtain ⟨t, ht, hid, hnode⟩ := h.held v hv
    have hat : At s t := At.of_mem ht
    obtain ⟨t', ht', hid', hnode', -⟩ := hat.updateToken id hf
    exact ⟨t', ht', hid'.trans hid, hnode'.trans hnode⟩
  · obtain ⟨t0, ht0, hid, hnode, hscope, -⟩ := hback t ht
    rw [← hid, ← hnode, ← hscope]
    exact h.shown t0 ht0 (hid ▸ hout)
  · obtain ⟨t0, ht0, -, hnode, hscope, harrival⟩ := hback t ht
    rw [← hnode, ← hscope, ← harrival]
    exact h.routed hg t0 ht0

theorem setTokenState (h : Ledger c given h0 out s) (id : String) (st : TokenState) :
    Ledger c given h0 out (s.setTokenState id st) :=
  h.updateToken id (fun _ => ⟨rfl, rfl, rfl⟩) (fun _ => rfl)

theorem awaitCommand (h : Ledger c given h0 out s) (id cmdID : String) : Ledger c given h0 out (s.awaitCommand id cmdID) :=
  h.updateToken id (fun _ => ⟨rfl, rfl, rfl⟩) (fun _ => rfl)

/-- An open visit is written to and stays open. -/
theorem annotate (h : Ledger c given h0 out s) (tokenID nodeID : String) {f : NodeVisit → NodeVisit}
    (hf : ∀ v, (f v).tokenID = v.tokenID ∧ (f v).nodeID = v.nodeID ∧ (f v).enteredAt = v.enteredAt ∧
      (f v).leftAt = v.leftAt) :
    Ledger c given h0 out (s.updateOpenVisit tokenID nodeID f) := by
  rcases updateOpenVisit_cases s tokenID nodeID f with ⟨he, -⟩ | ⟨pre, v, post, hh, -, hnode, hne, hopen, he⟩
  · rw [he]
    exact h
  · rw [he]
    obtain ⟨hftok, hfnode, hfat, hfleft⟩ := hf v
    have hold : openVisits s.history = openVisits pre ++ v :: openVisits post := by
      rw [hh, openVisits_append, openVisits_cons_of_open hopen (hnode ▸ hne)]
    have hnew : openVisits (pre ++ f v :: post) = openVisits pre ++ f v :: openVisits post := by
      rw [openVisits_append, openVisits_cons_of_open (hfleft.trans hopen) (hfnode.trans hnode ▸ hne)]
    -- the open visits are the same by token and node
    have hback : ∀ u ∈ openVisits (pre ++ f v :: post), ∃ w ∈ openVisits s.history, w.tokenID = u.tokenID ∧
      w.nodeID = u.nodeID := by
      intro u hu
      rw [hnew] at hu
      rw [hold]
      rcases List.mem_append.mp hu with hu | hu
      · exact ⟨u, List.mem_append_left _ hu, rfl, rfl⟩
      · rcases List.mem_cons.mp hu with rfl | hu
        · exact ⟨v, List.mem_append_right _ List.mem_cons_self, hftok.symm, hfnode.symm⟩
        · exact ⟨u, List.mem_append_right _ (List.mem_cons_of_mem _ hu), rfl, rfl⟩
    have hforth : ∀ w ∈ openVisits s.history, ∃ u ∈ openVisits (pre ++ f v :: post), u.tokenID = w.tokenID ∧
      u.nodeID = w.nodeID := by
      intro w hw
      rw [hold] at hw
      rw [hnew]
      rcases List.mem_append.mp hw with hw | hw
      · exact ⟨w, List.mem_append_left _ hw, rfl, rfl⟩
      · rcases List.mem_cons.mp hw with rfl | hw
        · exact ⟨f w, List.mem_append_right _ List.mem_cons_self, hftok, hfnode⟩
        · exact ⟨w, List.mem_append_right _ (List.mem_cons_of_mem _ hw), rfl, rfl⟩
    refine ⟨h.minted, h.ids, ?_, fun u hu => ?_, fun u hu => ?_, h.opened, fun t ht hout => ?_, ?_,
      fun he u hu => ?_, h.routed,
      h.resumes⟩
    · change ((openVisits (pre ++ f v :: post)).map _).Nodup
      have hsingle := h.single
      rw [hold] at hsingle
      rw [hnew]
      simpa [hftok] using hsingle
    · obtain ⟨w, hw, htok, hnd⟩ := hback u hu
      rw [← htok, ← hnd]
      exact h.held w hw
    · obtain ⟨w, hw, htok, -⟩ := hback u hu
      rw [← htok]
      exact h.gone w hw
    · refine (h.shown t ht hout).imp_right (fun hs => hs.imp_right (fun ⟨w, hw, htok, hnd⟩ => ?_))
      obtain ⟨u, hu, htok', hnd'⟩ := hforth w hw
      exact ⟨u, hu, htok'.trans htok, hnd'.trans hnd⟩
    · have hkept := h.kept
      rw [hh] at hkept
      exact hkept.trans (KeepsClosed.rewrite (f v) hopen)
    · have htimes := h.times he
      rw [hh] at htimes
      rcases List.mem_append.mp hu with hu | hu
      · exact htimes u (List.mem_append_left _ hu)
      · rcases List.mem_cons.mp hu with rfl | hu
        · rw [hfat, hfleft]
          exact htimes v (List.mem_append_right _ List.mem_cons_self)
        · exact htimes u (List.mem_append_right _ (List.mem_cons_of_mem _ hu))

/-- The token at its node is the only one with its id. -/
theorem at_unique (h : Ledger c given h0 out s) (hat : At s tok) {t : Token} (ht : t ∈ s.tokens) (hid : t.id = tok.id) :
    t.nodeID = tok.nodeID ∧ t.scopeID = tok.scopeID := by
  obtain ⟨t0, ht0, hid0, hplace⟩ := hat
  have heq : t = t0 := List.inj_on_of_nodup_map h.ids ht ht0 (hid.trans hid0.symm)
  rw [heq]
  exact hplace

theorem at_named (h : Ledger c given h0 out s) (hat : At s tok) : tok.id ≠ "" := by
  obtain ⟨t, ht, hid, -⟩ := hat
  rw [← hid]
  exact (h.minted t ht).ne_empty

/-- The visit of a token where it stands is closed: the token is on its way. -/
theorem close (h : Ledger c given h0 out s) (hat : At s tok) {f : NodeVisit → NodeVisit}
    (hf : ∀ v, (f v).enteredAt = v.enteredAt ∧ (f v).leftAt = some c.at_) :
    Ledger c given h0 (tok.id :: out) (s.updateOpenVisit tok.id tok.nodeID f) := by
  rcases updateOpenVisit_cases s tok.id tok.nodeID f with ⟨he, hnone⟩ | ⟨pre, v, post, hh, htok, hnode, hne, hopen, he⟩
  · -- there was no open visit to close
    rw [he]
    refine ⟨h.minted, h.ids, h.single, h.held, fun v hv hmem => ?_, h.opened, fun t ht hout => ?_, h.kept, h.times, h.routed,
      h.resumes⟩
    · rcases List.mem_cons.mp hmem with hid | hmem
      · obtain ⟨t, ht, htid, htnode⟩ := h.held v hv
        have hplace := (h.at_unique hat ht (htid.trans hid)).1
        exact (hnone.resolve_left (h.at_named hat)) v hv hid (htnode.symm.trans hplace)
      · exact h.gone v hv hmem
    · exact h.shown t ht (fun hmem => hout (List.mem_cons_of_mem _ hmem))
  · rw [he]
    obtain ⟨hfat, hfleft⟩ := hf v
    have hold : openVisits s.history = openVisits pre ++ v :: openVisits post := by
      rw [hh, openVisits_append, openVisits_cons_of_open hopen (hnode ▸ hne)]
    have hnew : openVisits (pre ++ f v :: post) = openVisits pre ++ openVisits post := by
      rw [openVisits_append, openVisits_cons_of_left (by rw [hfleft]; simp)]
    have hsub : (openVisits (pre ++ f v :: post)).Sublist (openVisits s.history) := by
      rw [hnew, hold]
      exact List.Sublist.append (List.Sublist.refl _) (List.sublist_cons_self _ _)
    have hsingle := h.single
    rw [hold, List.map_append, List.map_cons, List.nodup_middle, List.nodup_cons, ← List.map_append, ← hnew] at hsingle
    have hother : ∀ u ∈ openVisits (pre ++ f v :: post), u.tokenID ≠ tok.id := by
      intro u hu heq
      exact hsingle.1 (List.mem_map.mpr ⟨u, hu, heq.trans htok.symm⟩)
    refine ⟨h.minted, h.ids, hsingle.2, fun u hu => h.held u (hsub.subset hu), fun u hu hmem => ?_, h.opened,
      fun t ht hout => ?_, ?_, fun he' u hu => ?_, h.routed, h.resumes⟩
    · rcases List.mem_cons.mp hmem with hid | hmem
      · exact hother u hu hid
      · exact h.gone u (hsub.subset hu) hmem
    · have hne' : t.id ≠ tok.id := fun hid => hout (hid ▸ List.mem_cons_self)
      refine (h.shown t ht (fun hmem => hout (List.mem_cons_of_mem _ hmem))).imp_right (fun hs => hs.imp_right ?_)
      rintro ⟨w, hw, hwtok, hwnode⟩
      refine ⟨w, ?_, hwtok, hwnode⟩
      change w ∈ openVisits (pre ++ f v :: post)
      rw [hold] at hw
      rw [hnew]
      rcases List.mem_append.mp hw with hw | hw
      · exact List.mem_append_left _ hw
      · rcases List.mem_cons.mp hw with rfl | hw
        · exact absurd (hwtok.symm.trans htok) hne'
        · exact List.mem_append_right _ hw
    · have hkept := h.kept
      rw [hh] at hkept
      exact hkept.trans (KeepsClosed.rewrite (f v) hopen)
    · have htimes := h.times he'
      rw [hh] at htimes
      rcases List.mem_append.mp hu with hu | hu
      · exact htimes u (List.mem_append_left _ hu)
      · rcases List.mem_cons.mp hu with rfl | hu
        · have hbegan := (htimes v (List.mem_append_right _ List.mem_cons_self)).1
          rw [hfat, hfleft]
          exact ⟨hbegan, fun t ht => Option.some.inj ht ▸ hbegan⟩
        · exact htimes u (List.mem_append_right _ (List.mem_cons_of_mem _ hu))

/-- The tokens on their way are taken out. -/
theorem drop (h : Ledger c given h0 out s) {p : Token → Bool} (hp : ∀ t ∈ s.tokens, p t = true ↔ t.id ∉ out) :
    Ledger c given h0 [] { s with tokens := s.tokens.filter p } := by
  refine ⟨fun t ht => h.minted t (List.mem_of_mem_filter ht), (List.filter_sublist.map _).nodup h.ids, h.single,
    fun v hv => ?_, by simp, h.opened, fun t ht _ => ?_, h.kept, h.times,
    fun hg t ht => h.routed hg t (List.mem_of_mem_filter ht),
    h.resumes⟩
  · obtain ⟨t, ht, hid, hnode⟩ := h.held v hv
    exact ⟨t, List.mem_filter.mpr ⟨ht, (hp t ht).mpr (hid ▸ h.gone v hv)⟩, hid, hnode⟩
  · obtain ⟨ht, hpt⟩ := List.mem_filter.mp ht
    exact h.shown t ht ((hp t ht).mp hpt)

theorem removeToken {id : String} (h : Ledger c given h0 [id] s) (hne : id ≠ "") :
    Ledger c given h0 [] (s.removeToken id) := by
  unfold ControlState.removeToken
  rw [if_neg (by simpa using hne)]
  refine h.drop (fun t _ => ?_)
  rw [bne_iff_ne, List.mem_singleton]

/-- The token stays on a dead end. -/
theorem strand (h : Ledger c given h0 [tok.id] s) (hat : At s tok) (hdead : DeadEnd c.top s.trace tok.scopeID tok.nodeID) :
    Ledger c given h0 [] s := by
  refine ⟨h.minted, h.ids, h.single, h.held, by simp, h.opened, fun t ht _ => ?_, h.kept, h.times, h.routed, h.resumes⟩
  by_cases hid : t.id = tok.id
  · obtain ⟨hnode, hscope⟩ := h.at_unique hat ht hid
    rw [hnode, hscope]
    exact Or.inr (Or.inl hdead)
  · exact h.shown t ht (by simpa using hid)

/-- A visit begins. -/
theorem times_openVisit (h : Ledger c given h0 out s) (tokenID nodeID : String) (he : given.ordered) :
    ∀ v ∈ (s.openVisit tokenID nodeID c.at_).history, v.enteredAt ≤ c.at_ ∧ ∀ t, v.leftAt = some t → v.enteredAt ≤ t := by
  intro v hv
  rcases List.mem_append.mp hv with hv | hv
  · exact h.times he v hv
  · rw [List.mem_singleton.mp hv]
    exact ⟨le_rfl, by simp⟩

theorem relocate (h : Ledger c given h0 [tok.id] s) (hat : At s tok) {target : String}
    (hflow : given.told → CameBy c.top s.trace tok.scopeID target flow) :
      Ledger c given h0 [] (s.relocate tok target flow c.at_) := by
  let moved := fun t : Token => ({ t with nodeID := target, enteredAt := c.at_, arrivalFlow := flow } : Token)
  let visit : NodeVisit := { nodeID := target, tokenID := tok.id, enteredAt := c.at_ }
  have htokens : (s.relocate tok target flow c.at_).tokens = s.tokens.map (fun t => if t.id == tok.id then moved t else t) :=
    rfl
  have hhistory : (s.relocate tok target flow c.at_).history = s.history ++ [visit] := rfl
  have hopen : openVisits (s.history ++ [visit]) = openVisits s.history ++ openVisits [visit] := openVisits_append
  have hnew : ∀ v ∈ openVisits [visit], v = visit := fun v hv => List.mem_singleton.mp (mem_openVisits.mp hv).1
  have hids : (s.tokens.map (fun t => if t.id == tok.id then moved t else t)).map (·.id) = s.tokens.map (·.id) := by
    rw [List.map_map]
    refine List.map_congr_left (fun t _ => ?_)
    change (if t.id == tok.id then moved t else t).id = t.id
    split <;> rfl
  obtain ⟨t0, ht0, hid0, -⟩ := id hat
  have hnoted : ∀ sc ∈ s.scopes, Event.opened sc.id sc.nodeID sc.parentID ∈ (s.relocate tok target flow c.at_).trace :=
    fun sc hsc => List.mem_cons_of_mem _ (h.opened sc hsc)
  refine ⟨fun t ht => ?_, htokens ▸ hids ▸ h.ids, ?_, fun v hv => ?_, by simp, hnoted, fun t ht _ => ?_, ?_, fun he => ?_,
    fun hg t ht => ?_, h.resumes.mono (List.subset_cons_self _ _)⟩
  · obtain ⟨t1, ht1, rfl⟩ := List.mem_map.mp (htokens ▸ ht)
    have hsame : (if t1.id == tok.id then moved t1 else t1).id = t1.id := by split <;> rfl
    rw [hsame]
    exact h.minted t1 ht1
  · rw [hhistory, hopen, List.map_append, List.nodup_append]
    refine ⟨h.single, ?_, fun a ha b hb => ?_⟩
    · exact (List.filter_sublist.map _).nodup (List.nodup_singleton _)
    · obtain ⟨v, hv, rfl⟩ := List.mem_map.mp ha
      obtain ⟨w, hw, rfl⟩ := List.mem_map.mp hb
      rw [hnew w hw]
      intro heq
      exact h.gone v hv (List.mem_singleton.mpr heq)
  · rw [hhistory, hopen] at hv
    rw [htokens]
    rcases List.mem_append.mp hv with hv | hv
    · obtain ⟨t, ht, hid, hnode⟩ := h.held v hv
      have hne : t.id ≠ tok.id := by
        intro heq
        exact h.gone v hv (List.mem_singleton.mpr (hid.symm.trans heq))
      refine ⟨t, List.mem_map.mpr ⟨t, ht, ?_⟩, hid, hnode⟩
      rw [if_neg (by simpa using hne)]
    · rw [hnew v hv]
      refine ⟨moved t0, List.mem_map.mpr ⟨t0, ht0, ?_⟩, hid0, rfl⟩
      rw [if_pos (by simpa using hid0)]
  · rw [hhistory, hopen]
    obtain ⟨t1, ht1, rfl⟩ := List.mem_map.mp (htokens ▸ ht)
    by_cases hid : t1.id = tok.id
    · rw [if_pos (by simpa using hid)]
      by_cases hno : target = ""
      · exact Or.inl hno
      · refine Or.inr (Or.inr ⟨visit, List.mem_append_right _ ?_, hid.symm, rfl⟩)
        exact mem_openVisits.mpr ⟨List.mem_singleton.mpr rfl, rfl, hno⟩
    · rw [if_neg (by simpa using hid)]
      refine (h.shown t1 ht1 (by simpa using hid)).imp_right (fun hs => hs.imp (·.mono (List.subset_cons_self _ _)) ?_)
      rintro ⟨v, hv, hplace⟩
      exact ⟨v, List.mem_append_left _ hv, hplace⟩
  · rw [hhistory]
    exact h.kept.trans (KeepsClosed.append _ _)
  · exact h.times_openVisit tok.id target he
  · obtain ⟨t1, ht1, rfl⟩ := List.mem_map.mp (htokens ▸ ht)
    by_cases hid : t1.id = tok.id
    · rw [if_pos (by simpa using hid)]
      have hscope : t1.scopeID = tok.scopeID := (h.at_unique hat ht1 hid).2
      exact (hscope ▸ hflow hg).mono (List.subset_cons_self _ _)
    · rw [if_neg (by simpa using hid)]
      exact (h.routed hg t1 ht1).mono (List.subset_cons_self _ _)

theorem place (h : Ledger c given h0 [] s) {node scope : String} (hflow : given.told → CameBy c.top s.trace scope node flow) :
    Ledger c given h0 [] (s.placeTokenInScope c.ids node scope flow c.at_) := by
  let id := c.ids.newID .token (s.tokenSeq + 1)
  let tok : Token := { id := id, nodeID := node, scopeID := scope, enteredAt := c.at_, arrivalFlow := flow }
  let visit : NodeVisit := { nodeID := node, tokenID := id, enteredAt := c.at_ }
  have htokens : (s.placeTokenInScope c.ids node scope flow c.at_).tokens = s.tokens ++ [tok] := rfl
  have hhistory : (s.placeTokenInScope c.ids node scope flow c.at_).history = s.history ++ [visit] := rfl
  have hopen : openVisits (s.history ++ [visit]) = openVisits s.history ++ openVisits [visit] := openVisits_append
  have hnew : ∀ v ∈ openVisits [visit], v = visit := fun v hv => List.mem_singleton.mp (mem_openVisits.mp hv).1
  have hfresh : ∀ t ∈ s.tokens, t.id ≠ id := fun t ht => (h.minted t ht).ne_next
  have hnoted : ∀ sc ∈ s.scopes, Event.opened sc.id sc.nodeID sc.parentID ∈
      (s.placeTokenInScope c.ids node scope flow c.at_).trace := fun sc hsc => List.mem_cons_of_mem _ (h.opened sc hsc)
  refine ⟨fun t ht => ?_, ?_, ?_, fun v hv => ?_, by simp, hnoted, fun t ht _ => ?_, ?_, fun he => ?_, fun hg t ht => ?_,
    h.resumes.mono (List.subset_cons_self _ _)⟩
  · rw [htokens] at ht
    rcases List.mem_append.mp ht with ht | ht
    · exact (h.minted t ht).mono (Nat.le_succ _)
    · rw [List.mem_singleton.mp ht]
      exact minted_self c.ids .token (s.tokenSeq + 1)
  · rw [htokens, List.map_append, List.nodup_append]
    refine ⟨h.ids, List.nodup_singleton _, fun a ha b hb => ?_⟩
    obtain ⟨t, ht, rfl⟩ := List.mem_map.mp ha
    rw [List.map_singleton, List.mem_singleton] at hb
    rw [hb]
    exact hfresh t ht
  · rw [hhistory, hopen, List.map_append, List.nodup_append]
    refine ⟨h.single, (List.filter_sublist.map _).nodup (List.nodup_singleton _), fun a ha b hb => ?_⟩
    obtain ⟨v, hv, rfl⟩ := List.mem_map.mp ha
    obtain ⟨w, hw, rfl⟩ := List.mem_map.mp hb
    rw [hnew w hw]
    obtain ⟨t, ht, hid, -⟩ := h.held v hv
    exact hid ▸ hfresh t ht
  · rw [hhistory, hopen] at hv
    rw [htokens]
    rcases List.mem_append.mp hv with hv | hv
    · obtain ⟨t, ht, hplace⟩ := h.held v hv
      exact ⟨t, List.mem_append_left _ ht, hplace⟩
    · rw [hnew v hv]
      exact ⟨tok, List.mem_append_right _ (List.mem_singleton.mpr rfl), rfl, rfl⟩
  · rw [hhistory, hopen]
    rw [htokens] at ht
    rcases List.mem_append.mp ht with ht | ht
    · refine (h.shown t ht (by simp)).imp_right (fun hs => hs.imp (·.mono (List.subset_cons_self _ _)) ?_)
      rintro ⟨v, hv, hplace⟩
      exact ⟨v, List.mem_append_left _ hv, hplace⟩
    · rw [List.mem_singleton.mp ht]
      by_cases hno : node = ""
      · exact Or.inl hno
      · refine Or.inr (Or.inr ⟨visit, List.mem_append_right _ ?_, rfl, rfl⟩)
        exact mem_openVisits.mpr ⟨List.mem_singleton.mpr rfl, rfl, hno⟩
  · rw [hhistory]
    exact h.kept.trans (KeepsClosed.append _ _)
  · exact h.times_openVisit id node he
  · rw [htokens] at ht
    rcases List.mem_append.mp ht with ht | ht
    · exact (h.routed hg t ht).mono (List.subset_cons_self _ _)
    · rw [List.mem_singleton.mp ht]
      exact (hflow hg).mono (List.subset_cons_self _ _)

/-! ## Operations -/

theorem closeVisitAs (h : Ledger c given h0 out s) (hat : At s tok) (kind : CloseKind) :
    Ledger c given h0 (tok.id :: out) (s.closeVisitAs tok.id tok.nodeID c.at_ kind) := h.close hat (fun _ => ⟨rfl, rfl⟩)

theorem closeVisit (h : Ledger c given h0 out s) (hat : At s tok) :
    Ledger c given h0 (tok.id :: out) (s.closeVisit tok.id tok.nodeID c.at_) := h.close hat (fun _ => ⟨rfl, rfl⟩)

theorem consumeTokenAs (h : Ledger c given h0 [] s) (hat : At s tok) (kind : CloseKind) :
    Ledger c given h0 [] (s.consumeTokenAs tok c.at_ kind) := (h.closeVisitAs hat kind).removeToken (h.at_named hat)

theorem moveTokenToTargetAs (h : Ledger c given h0 [] s) (hat : At s tok) {target : String}
    (hflow : given.told → CameBy c.top s.trace tok.scopeID target flow) (kind : CloseKind) :
    Ledger c given h0 [] (s.moveTokenToTargetAs tok target flow c.at_ kind) := by
  have htrace := updateOpenVisit_trace s tok.id tok.nodeID (fun v => { v with leftAt := some c.at_, closeKind := kind })
  have hclosed := hat.updateOpenVisit tok.id tok.nodeID (fun v => { v with leftAt := some c.at_, closeKind := kind })
  exact ((h.closeVisitAs hat kind).setTokenState tok.id .active).relocate
    (hclosed.updateToken tok.id (fun _ => ⟨rfl, rfl, rfl⟩)) (fun hg => htrace.symm ▸ hflow hg)

theorem closeRelocate (h : Ledger c given h0 [] s) (hat : At s tok) {target : String}
    (hflow : given.told → CameBy c.top s.trace tok.scopeID target flow) :
    Ledger c given h0 [] ((s.closeVisit tok.id tok.nodeID c.at_).relocate tok target flow c.at_) := by
  have htrace := updateOpenVisit_trace s tok.id tok.nodeID (fun v => { v with leftAt := some c.at_ })
  have hhere := hat.updateOpenVisit tok.id tok.nodeID (fun v => { v with leftAt := some c.at_ })
  exact (h.closeVisit hat).relocate hhere (fun hg => htrace.symm ▸ hflow hg)

theorem cancelToken (h : Ledger c given h0 [] s) (tok : Token) (kind : CloseKind) :
    Ledger c given h0 [] (s.cancelToken tok c.at_ kind) := by
  unfold ControlState.cancelToken
  cases hfind : s.tokenByID tok.id with
  | none => exact h
  | some t =>
    have hmem : t ∈ s.tokens := by
      unfold tokenByID at hfind
      split at hfind
      · cases hfind
      · exact List.mem_of_find?_eq_some hfind
    exact (h.consumeTokenAs (At.of_mem hmem) kind).note _

theorem cancelListed (h : Ledger c given h0 [] s) (kind : CloseKind) (toks : List Token) :
    Ledger c given h0 [] (s.cancelListed c.at_ kind toks) := by
  induction toks generalizing s with
  | nil => exact h
  | cons tok toks ih => exact ih (h.cancelToken tok kind)

/-- Visits of tokens where they stand are closed one after another. -/
theorem closeAll {f : ControlState → Token → ControlState}
    (hf : ∀ {out s tok}, Ledger c given h0 out s → At s tok → Ledger c given h0 (tok.id :: out) (f s tok) ∧
      (f s tok).tokens = s.tokens) :
    ∀ {toks : List Token} {out : List String} {s : ControlState}, Ledger c given h0 out s → (∀ t ∈ toks, At s t) →
      ∃ out', (∀ id, id ∈ out' ↔ id ∈ out ∨ ∃ t ∈ toks, t.id = id) ∧ Ledger c given h0 out' (toks.foldl f s) ∧
        (toks.foldl f s).tokens = s.tokens := by
  intro toks
  induction toks with
  | nil =>
    intro out s h _
    exact ⟨out, by simp, h, rfl⟩
  | cons tok toks ih =>
    intro out s h hall
    obtain ⟨hone, htok⟩ := hf h (hall tok List.mem_cons_self)
    have hrest : ∀ t ∈ toks, At (f s tok) t := fun t ht => (hall t (List.mem_cons_of_mem _ ht)).of_tokens htok
    obtain ⟨out', hout, hled, htoks⟩ := ih hone hrest
    refine ⟨out', fun id => ?_, hled, htoks.trans htok⟩
    rw [hout]
    simp only [List.mem_cons]
    constructor
    · rintro ((rfl | hid) | ⟨t, ht, rfl⟩)
      · exact Or.inr ⟨tok, Or.inl rfl, rfl⟩
      · exact Or.inl hid
      · exact Or.inr ⟨t, Or.inr ht, rfl⟩
    · rintro (hid | ⟨t, rfl | ht, rfl⟩)
      · exact Or.inl (Or.inr hid)
      · exact Or.inl (Or.inl rfl)
      · exact Or.inr ⟨t, ht, rfl⟩

theorem updateOpenVisit_tokens (s : ControlState) (tokenID nodeID : String) (f : NodeVisit → NodeVisit) :
    (s.updateOpenVisit tokenID nodeID f).tokens = s.tokens := by
  obtain ⟨v, -, he⟩ := s.updateOpenVisit_shape tokenID nodeID f
  rw [he]

theorem cancelAllTokens (h : Ledger c given h0 [] s) (kind : CloseKind) :
    Ledger c given h0 [] (s.cancelAllTokens c.at_ kind) := by
  obtain ⟨out, hout, hled, htoks⟩ := closeAll
    (f := fun s tok => (s.closeVisitAs tok.id tok.nodeID c.at_ kind).note
      (.cancelled tok s.deferredCompensationThrows s.walking))
    (fun h hat => ⟨(h.closeVisitAs hat kind).note _, updateOpenVisit_tokens _ _ _ _⟩) h (fun t ht => At.of_mem ht)
  have hdrop := hled.drop (p := fun _ => false) (fun t ht => by
    have hin : t.id ∈ out := (hout t.id).mpr (Or.inr ⟨t, htoks ▸ ht, rfl⟩)
    simp [hin])
  unfold ControlState.cancelAllTokens
  refine hdrop.of_same ?_ rfl rfl (List.Subset.refl _) hdrop.opened (.inl rfl)
  change [] = List.filter (fun _ => false) _
  rw [List.filter_false]

theorem recordCompensation (h : Ledger c given h0 out s) (scope : String) (rec : CompensationRecord) :
    Ledger c given h0 out (s.recordCompensation scope rec) := by
  unfold ControlState.recordCompensation
  split
  · exact Ledger.note (s := { s with rootCompensations := s.rootCompensations ++ [rec] }) (h.of_books rfl (.inl rfl)) _
  · split
    · exact h
    · exact (h.of_outline (setCompensations_outline _ _ _)).note _

theorem recordCompensation_trace (s : ControlState) (scope : String) (rec : CompensationRecord) :
    s.trace ⊆ (s.recordCompensation scope rec).trace := by
  unfold ControlState.recordCompensation
  split
  · exact List.subset_cons_self _ _
  · split
    · exact List.Subset.refl _
    · exact List.subset_cons_self _ _

theorem placeOnFlows (h : Ledger c given h0 [] s) {scope : String} (hd : ScopeDefn c.top s.trace scope d)
    {fs : List FlowRef} (hfs : ∀ f ∈ fs, f ∈ flowRefs d) : Ledger c given h0 [] (placeOnFlows c.ids scope c.at_ fs s) := by
  induction fs generalizing s with
  | nil => exact h
  | cons f fs ih =>
    have hplaced := h.place (fun _ => CameBy.along hd (hfs f List.mem_cons_self))
    exact ih hplaced (hd.mono (List.subset_cons_self _ _)) (fun f' hf' => hfs f' (List.mem_cons_of_mem _ hf'))

theorem closeVisits_trace (toks : List Token) (s : ControlState) (at_ : Time) :
    (toks.foldl (fun s t => s.closeVisit t.id t.nodeID at_) s).trace = s.trace := by
  induction toks generalizing s with
  | nil => rfl
  | cons tok toks ih => exact (ih _).trans (updateOpenVisit_trace s tok.id tok.nodeID _)

theorem fireJoin (h : Ledger c given h0 [] s) (node : String) {scope : String}
    (hd : ScopeDefn c.top s.trace scope d) {consumed : List Token}
    (hin : ∀ t ∈ consumed, t ∈ s.tokens ∧ joinedAt t node scope = true) :
    Ledger c given h0 [] (fireJoin c.ids d s node scope c.at_ consumed) := by
  obtain ⟨out, hout, hled, htoks⟩ := closeAll (f := fun s t => s.closeVisit t.id t.nodeID c.at_)
    (fun h hat => ⟨h.closeVisit hat, updateOpenVisit_tokens _ _ _ _⟩) h (fun t ht => At.of_mem (hin t ht).1)
  have hdrop := hled.drop (p := fun t => !(joinedAt t node scope && hasToken consumed t)) (fun t ht => by
    rw [htoks] at ht
    rw [hout, Bool.not_eq_true', Bool.and_eq_false_iff]
    constructor
    · rintro hno (hnil | ⟨t', ht', hid⟩)
      · cases hnil
      · have heq : t' = t := List.inj_on_of_nodup_map h.ids (hin t' ht').1 ht hid
        subst heq
        rcases hno with hno | hno
        · rw [(hin t' ht').2] at hno
          cases hno
        · have hyes : hasToken consumed t' = true := List.any_eq_true.mpr ⟨t', ht', by simp⟩
          rw [hyes] at hno
          cases hno
    · intro hno
      right
      by_contra hyes
      rw [Bool.not_eq_false] at hyes
      obtain ⟨a, ha, hid⟩ := List.any_eq_true.mp hyes
      exact hno (Or.inr ⟨a, ha, by simpa using hid⟩))
  unfold Wrkflw.fireJoin
  refine Ledger.placeOnFlows ?_ (d := d) ?_ (fun f hf => List.mem_of_mem_filter hf)
  · refine hdrop.of_same ?_ rfl rfl (List.Subset.refl _) hdrop.opened (.inl rfl)
    change List.filter _ s.tokens = List.filter _ _
    rw [htoks]
  · exact (closeVisits_trace consumed s c.at_).symm ▸ hd

end Ledger

end Wrkflw
