import Wrkflw.Machine.Run
import Wrkflw.Machine.Subtree
import Wrkflw.Definition.Validate

/-!
# Inclusive joins

A converging inclusive gateway should fire once nothing can reach it any more. `Outstanding` says what can: a token
of its scope that is on the join unprocessed or on the way to it, a sub-process with tokens in it, and the
continuation of a compensation throw's walk; the ways are sequence flows and the boundary events of a node.

The code looks at sequence flows only (`mem_nodesThatCanReach`) and leaves out the tokens on the join itself and
the walk in flight. `inclusive_join_fires_alone_iff` says when that is enough, for every firing of every run.
-/

namespace Wrkflw

/-! ## Routes -/

/-- There is a route to the target that does not pass through it. -/
inductive Leads (step : String → String → Prop) (target : String) : String → Prop
  | one {a : String} (hne : a ≠ target) (h : step a target) : Leads step target a
  | more {a b : String} (hne : a ≠ target) (h : step a b) (hb : Leads step target b) : Leads step target a

def SequenceStep (d : ProcessDefinition) (a b : String) : Prop := ∃ f ∈ d.flows, f.source = a ∧ f.target = b

/-- A boundary event of the node may fire. -/
def BoundaryStep (d : ProcessDefinition) (a b : String) : Prop :=
  ∃ n ∈ d.nodes, ∃ e, n.spec = .boundaryEvent e ∧ e.attachedTo = a ∧ n.id = b

def TravelStep (d : ProcessDefinition) (a b : String) : Prop := SequenceStep d a b ∨ BoundaryStep d a b

section Routes
variable (d : ProcessDefinition) (target : String)

theorem mem_sourcesInto {n a : String} : a ∈ sourcesInto d target n ↔ SequenceStep d a n ∧ a ≠ target := by
  unfold sourcesInto ProcessDefinition.incoming SequenceStep
  rw [List.mem_filter, bne_iff_ne, List.mem_map]
  refine and_congr_left' ⟨?_, ?_⟩
  · rintro ⟨f, hf, rfl⟩
    obtain ⟨hmem, ht⟩ := List.mem_filter.mp hf
    exact ⟨f, hmem, rfl, beq_iff_eq.mp ht⟩
  · rintro ⟨f, hmem, rfl, ht⟩
    exact ⟨f, List.mem_filter.mpr ⟨hmem, beq_iff_eq.mpr ht⟩, rfl⟩

/-- A route found backwards from the target, read forwards. -/
theorem leads_of_back {x : String} (h : Relation.ReflTransGen (Library.Edge (sourcesInto d target)) target x) :
    x = target ∨ Leads (SequenceStep d) target x := by
  induction h with
  | refl => exact Or.inl rfl
  | tail _ hstep ih =>
    obtain ⟨hseq, hne⟩ := (mem_sourcesInto d target).mp hstep
    rcases ih with rfl | ih
    · exact Or.inr (Leads.one hne hseq)
    · exact Or.inr (Leads.more hne hseq ih)

theorem back_of_leads {x : String} (h : Leads (SequenceStep d) target x) :
    Relation.ReflTransGen (Library.Edge (sourcesInto d target)) target x := by
  induction h with
  | one hne h => exact Relation.ReflTransGen.single ((mem_sourcesInto d target).mpr ⟨h, hne⟩)
  | more hne h _ ih => exact ih.tail ((mem_sourcesInto d target).mpr ⟨h, hne⟩)

theorem Leads.ne {r : String → String → Prop} {target x : String} (h : Leads r target x) : x ≠ target := by
  cases h with
  | one hne _ => exact hne
  | more hne _ _ => exact hne

/-- What the code's backward search finds. -/
theorem mem_nodesThatCanReach (x : String) : x ∈ nodesThatCanReach d target ↔ Leads (SequenceStep d) target x := by
  have huniv : ∀ n a, a ∈ sourcesInto d target n → a ∈ d.flows.map (·.source) := by
    intro n a ha
    obtain ⟨⟨f, hf, rfl, -⟩, -⟩ := (mem_sourcesInto d target).mp ha
    exact List.mem_map_of_mem hf
  unfold nodesThatCanReach
  rw [List.mem_filter, bne_iff_ne, Library.mem_reach_iff (sourcesInto d target) huniv (by simp)]
  constructor
  · rintro ⟨h, hne⟩
    exact (leads_of_back d target h).resolve_left hne
  · intro h
    exact ⟨back_of_leads d target h, h.ne⟩

end Routes

/-! ## Outstanding work -/

section Work
variable (d : ProcessDefinition) (join scope : String) (tokens : List Token) (scopes : List Scope)
  (cursor : CompensationCursor)

/-- A token on the node can still arrive at the join. -/
def Arrives (node : String) : Prop := node = join ∨ Leads (TravelStep d) join node

/-- Work that can still deliver a token to the join before it fires. -/
inductive Outstanding : Prop
  | token (t : Token) (hmem : t ∈ tokens) (hscope : t.scopeID = scope) (hfree : joinedAt t join scope = false)
      (h : Arrives d join t.nodeID)
  | nested (t : Token) (sc : Scope) (hmem : t ∈ tokens) (hsc : sc ∈ scopes) (hparent : sc.parentID = scope)
      (hin : Within scopes sc.id t.scopeID) (h : Leads (TravelStep d) join sc.nodeID)
  | resume (hwalk : cursor.activeCmdID ≠ "") (hthrow : cursor.resumeNode ≠ "") (hscope : cursor.resumeScope = scope)
      (h : Arrives d join cursor.resumeNode)
  | nestedResume (sc : Scope) (hwalk : cursor.activeCmdID ≠ "") (hthrow : cursor.resumeNode ≠ "") (hsc : sc ∈ scopes)
      (hparent : sc.parentID = scope) (hin : Within scopes sc.id cursor.resumeScope)
      (h : Leads (TravelStep d) join sc.nodeID)

/-- A node that can only reach the join through a boundary event. -/
def BoundaryOnly (node : String) : Prop := Leads (TravelStep d) join node ∧ ¬ Leads (SequenceStep d) join node

/-- Nothing reaches the join by a way the code does not look at. -/
structure NoHiddenRoute : Prop where
  unparked : ∀ t ∈ tokens, t.scopeID = scope → t.nodeID = join → t.state = .joining
  boundary : ∀ t ∈ tokens, t.scopeID = scope → ¬ BoundaryOnly d join t.nodeID
  nested : ∀ t ∈ tokens, ∀ sc ∈ scopes, sc.parentID = scope → Within scopes sc.id t.scopeID →
    ¬ BoundaryOnly d join sc.nodeID
  walk : cursor.activeCmdID ≠ "" → cursor.resumeNode ≠ "" → ¬ (cursor.resumeScope = scope ∧ Arrives d join cursor.resumeNode)
  nestedWalk : cursor.activeCmdID ≠ "" → cursor.resumeNode ≠ "" → ∀ sc ∈ scopes, sc.parentID = scope →
    Within scopes sc.id cursor.resumeScope → ¬ Leads (TravelStep d) join sc.nodeID

end Work

/-- Every firing of every run: nothing was outstanding exactly when no hidden route led to the join, and then the
firing took every token on it. -/
theorem inclusive_join_fires_alone_iff {d : ProcessDefinition} {gen : Option IDGenerator} {inst : String}
    {calls : List Call} {x : InstanceState} (h : Run d gen inst calls x) {scope join : String}
    {consumed tokens : List Token} {scopes : List Scope} {cursor : CompensationCursor}
    (he : Event.inclusiveFired scope join consumed tokens scopes cursor ∈ x.trace) :
    ∃ tdef, defForScope d scopes scope = .ok tdef ∧
      (¬ Outstanding tdef join scope tokens scopes cursor ↔ NoHiddenRoute tdef join scope tokens scopes cursor) ∧
      (¬ Outstanding tdef join scope tokens scopes cursor →
        ∀ t ∈ tokens, t.scopeID = scope → t.nodeID = join → t ∈ consumed) := by
  obtain ⟨p, tdef, n, hsaw, rfl, hsite, htok, hsub, hcons⟩ := h.noted _ he
  obtain ⟨hwf, rfl, rfl, rfl⟩ := hsaw
  -- the code's two checks, as routes
  have hseq : ∀ t ∈ p.tokens, t.scopeID = scope → joinedAt t n.id scope = false →
      ¬ Leads (SequenceStep tdef) n.id t.nodeID := by
    intro t ht hscope hfree hleads
    have hno := List.any_eq_false.mp htok t ht
    rw [hfree, hscope, beq_self_eq_true, List.contains_iff_mem.mpr ((mem_nodesThatCanReach tdef n.id _).mpr hleads)] at hno
    exact hno rfl
  have hnest : ∀ t ∈ p.tokens, ∀ sc ∈ p.scopes, sc.parentID = scope → Within p.scopes sc.id t.scopeID →
      ¬ Leads (SequenceStep tdef) n.id sc.nodeID := by
    intro t ht sc hsc hparent hin hleads
    have hno := List.any_eq_false.mp hsub sc hsc
    have hpos := (tokensInScopeSubtree_pos hwf.names sc.id).mpr ⟨t, ht, hin⟩
    rw [hparent, beq_self_eq_true, List.contains_iff_mem.mpr ((mem_nodesThatCanReach tdef n.id _).mpr hleads),
      decide_eq_true hpos] at hno
    exact hno rfl
  refine ⟨tdef, hsite.defn, ⟨fun hout => ?_, ?_⟩, fun hout t ht hscope hnode => ?_⟩
  · refine ⟨fun t ht hscope hnode => ?_, fun t ht hscope hb => ?_, fun t ht sc hsc hparent hin hb => ?_,
      fun hw hr hs => ?_, fun hw hr sc hsc hparent hin hl => ?_⟩
    · by_contra hstate
      refine hout (Outstanding.token t ht hscope (Bool.eq_false_iff.mpr (fun hj => ?_)) (Or.inl hnode))
      exact hstate (joinedAt_iff.mp hj).2.1
    · refine hout (Outstanding.token t ht hscope (Bool.eq_false_iff.mpr (fun hj => ?_)) (Or.inr hb.1))
      exact hb.1.ne (joinedAt_iff.mp hj).1
    · exact hout (Outstanding.nested t sc ht hsc hparent hin hb.1)
    · exact hout (Outstanding.resume hw hr hs.1 hs.2)
    · exact hout (Outstanding.nestedResume sc hw hr hsc hparent hin hl)
  · intro hno hout
    cases hout with
    | token t ht hscope hfree ha =>
      rcases ha with hnode | hleads
      · have hj := joinedAt_iff.mpr ⟨hnode, hno.unparked t ht hscope hnode, hscope⟩
        rw [hfree] at hj
        cases hj
      · exact hno.boundary t ht hscope ⟨hleads, hseq t ht hscope hfree⟩
    | nested t sc ht hsc hparent hin hleads =>
      exact hno.nested t ht sc hsc hparent hin ⟨hleads, hnest t ht sc hsc hparent hin⟩
    | resume hw hr hscope ha => exact hno.walk hw hr ⟨hscope, ha⟩
    | nestedResume sc hw hr hsc hparent hin hl => exact hno.nestedWalk hw hr sc hsc hparent hin hl
  · rw [hcons]
    refine List.mem_filter.mpr ⟨ht, ?_⟩
    by_contra hj
    exact hout (Outstanding.token t ht hscope (Bool.eq_false_iff.mpr hj) (Or.inl hnode))

/-! ## Two definitions -/

/-- Two service tasks between a parallel split and an inclusive join. -/
def inclusiveDiamond : ProcessDefinition where
  id := "diamond"
  version := 1
  nodes := [startNode "s", forkNode "g", serviceNode "a" "", serviceNode "b" "",
    { id := "j", spec := .inclusiveGateway }, endNode "e"]
  flows := [flowOf "f1" "s" "g", flowOf "f2" "g" "a", flowOf "f3" "g" "b", flowOf "f4" "a" "j", flowOf "f5" "b" "j",
    flowOf "f6" "j" "e"]

/-- A parallel split with two flows straight into an inclusive join. -/
def twinFlows : ProcessDefinition where
  id := "twin"
  version := 1
  nodes := [startNode "s", forkNode "g",
    { id := "j", spec := .inclusiveGateway }, serviceNode "a" "",
    endNode "e"]
  flows := [flowOf "f1" "s" "g", flowOf "f2" "g" "j", flowOf "f3" "g" "j", flowOf "f4" "j" "a", flowOf "f5" "a" "e"]

/-- A firing with nothing around: every token is parked on the join, no scope is open and no walk is in flight. -/
def quietFiring : Event → Bool
  | .inclusiveFired scope join _ tokens scopes cursor =>
    tokens.all (fun t => joinedAt t join scope) && scopes.isEmpty && cursor.activeCmdID == ""
  | _ => false

/-- A firing with a token on the join that was not processed yet. -/
def earlyFiring : Event → Bool
  | .inclusiveFired scope join _ tokens _ _ =>
    tokens.any (fun t => t.scopeID == scope && t.nodeID == join && !joinedAt t join scope)
  | _ => false

theorem quietFiring_event {e : Event} (h : quietFiring e = true) :
    ∃ scope join consumed tokens scopes cursor, e = .inclusiveFired scope join consumed tokens scopes cursor ∧
      ∀ tdef, NoHiddenRoute tdef join scope tokens scopes cursor := by
  cases e
  case inclusiveFired scope join consumed tokens scopes cursor =>
    simp only [quietFiring, Bool.and_eq_true, List.all_eq_true, List.isEmpty_iff, beq_iff_eq] at h
    obtain ⟨⟨htok, hsc⟩, hcur⟩ := h
    refine ⟨_, _, _, _, _, _, rfl, fun tdef => ⟨fun t ht _ _ => (joinedAt_iff.mp (htok t ht)).2.1,
      fun t ht _ hb => hb.1.ne (joinedAt_iff.mp (htok t ht)).1, fun t _ sc hmem => ?_, fun hw => absurd hcur hw,
      fun hw => absurd hcur hw⟩⟩
    rw [hsc] at hmem
    cases hmem
  all_goals cases h

theorem earlyFiring_event {e : Event} (h : earlyFiring e = true) :
    ∃ scope join consumed tokens scopes cursor, e = .inclusiveFired scope join consumed tokens scopes cursor ∧
      ∀ tdef, Outstanding tdef join scope tokens scopes cursor := by
  cases e
  case inclusiveFired scope join consumed tokens scopes cursor =>
    obtain ⟨t, ht, hp⟩ := List.any_eq_true.mp h
    rw [Bool.and_eq_true, Bool.and_eq_true, beq_iff_eq, beq_iff_eq, Bool.not_eq_true'] at hp
    exact ⟨_, _, _, _, _, _, rfl, fun tdef => Outstanding.token t ht hp.1.1 hp.2 (Or.inl hp.1.2)⟩
  all_goals cases h

/-- The diamond's join fires once both tasks are done, with nothing outstanding. -/
theorem inclusive_diamond_fires_alone : ∃ x calls, Run inclusiveDiamond none "i" calls x ∧
    ∃ scope join consumed tokens scopes cursor,
      Event.inclusiveFired scope join consumed tokens scopes cursor ∈ x.trace ∧
      ∃ tdef, ¬ Outstanding tdef join scope tokens scopes cursor := by
  have hplay : playsTo inclusiveDiamond [.startInstance [] "", .actionCompleted "i-c1" [], .actionCompleted "i-c2" []]
      (fun x => x.trace.any quietFiring) = true := by decide
  obtain ⟨x, hrun, hany⟩ := run_of_playsTo hplay
  obtain ⟨e, he, hq⟩ := List.any_eq_true.mp hany
  obtain ⟨scope, join, consumed, tokens, scopes, cursor, rfl, hno⟩ := quietFiring_event hq
  obtain ⟨tdef, -, hiff, -⟩ := inclusive_join_fires_alone_iff hrun he
  exact ⟨x, _, hrun, scope, join, consumed, tokens, scopes, cursor, he, tdef, hiff.mpr (hno tdef)⟩

/-- The twin flows' join fires while the second token is on it unprocessed, and then once more for that token. -/
theorem inclusive_join_fires_early : Accepted asciiTables twinFlows ∧ ∃ x calls, Run twinFlows none "i" calls x ∧
    1 < (x.trace.filter (fun e => match e with | .inclusiveFired .. => true | _ => false)).length ∧
    ∃ scope join consumed tokens scopes cursor,
      Event.inclusiveFired scope join consumed tokens scopes cursor ∈ x.trace ∧
      ∀ tdef, defForScope twinFlows scopes scope = .ok tdef → Outstanding tdef join scope tokens scopes cursor := by
  have hplay : playsTo twinFlows [.startInstance [] ""] (fun x => x.trace.any earlyFiring &&
      decide (1 < (x.trace.filter (fun e => match e with | .inclusiveFired .. => true | _ => false)).length)) = true := by
    decide
  obtain ⟨x, hrun, hboth⟩ := run_of_playsTo hplay
  obtain ⟨hany, htwice⟩ := Bool.and_eq_true_iff.mp hboth
  obtain ⟨e, he, hq⟩ := List.any_eq_true.mp hany
  obtain ⟨scope, join, consumed, tokens, scopes, cursor, rfl, hout⟩ := earlyFiring_event hq
  exact ⟨by decide, x, _, hrun, of_decide_eq_true htwice, scope, join, consumed, tokens, scopes, cursor, he,
    fun tdef _ => hout tdef⟩

end Wrkflw
