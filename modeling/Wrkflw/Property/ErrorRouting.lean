import Wrkflw.Machine.Nesting
import Wrkflw.Machine.Filing
import Wrkflw.Definition.Validate

/-!
# Errors and the boundaries that catch them

Which boundary an error goes to and what it takes away. A boundary of the failing activity comes first, then the boundaries
of the sub-processes around it, from the inside out; of the boundaries of one activity the definition's first matching
one is taken. What is cancelled is the failing token, or the whole subtree of the scope whose activity caught the error.
-/

namespace Wrkflw

open ControlState

variable {found : String × BoundaryEvent} {root : String}

/-! ## Who catches an error -/

section Catching
variable (c : StepCtx) (x : InstanceState) (code cause : String)

/-- The boundary event is one of the host and matches the error. -/
structure Catches (host : String) (e : BoundaryEvent) : Prop where
  attachedTo : e.attachedTo = host
  error : isErrorBoundary e = true
  «matches» : boundaryErrorMatches c.eval e x.vars cause code = true

/-- No boundary event of the definition catches the error at the host. -/
def NoCatch (d : ProcessDefinition) (host : String) : Prop :=
  ∀ n ∈ d.nodes, ∀ e, n.spec = .boundaryEvent e → ¬ Catches c x code cause host e

/-- The boundary event is the first of the definition's nodes to catch the error at the host. -/
def FirstCatch (d : ProcessDefinition) (host nodeID : String) (e : BoundaryEvent) : Prop :=
  ∃ before n after, d.nodes = before ++ n :: after ∧ n.id = nodeID ∧ n.spec = .boundaryEvent e ∧
    Catches c x code cause host e ∧ ∀ m ∈ before, ∀ e', m.spec = .boundaryEvent e' → ¬ Catches c x code cause host e'

/-- Nothing catches the error at the activity of the scope. -/
def PassesBy (sc : Scope) : Prop :=
  ∀ pd, defForScope c.top x.scopes sc.parentID = .ok pd → NoCatch c x code cause pd sc.nodeID

/-- The activity of the scope `sc` is the nearest one around `scopeID` with a boundary that catches the error. -/
structure CaughtBy (scopeID : String) (sc : Scope) (pd : ProcessDefinition) (nodeID : String) (e : BoundaryEvent) : Prop where
  mem : sc ∈ x.scopes
  encloses : Within x.scopes sc.id scopeID
  defn : defForScope c.top x.scopes sc.parentID = .ok pd
  first : FirstCatch c x code cause pd sc.nodeID nodeID e
  nearest : ∀ inner ∈ x.scopes, inner.id ≠ sc.id → Within x.scopes sc.id inner.id → Within x.scopes inner.id scopeID →
    PassesBy c x code cause inner

/-- No activity around the scope has a boundary that catches the error. -/
def CaughtNowhere (scopeID : String) : Prop :=
  ∀ sc ∈ x.scopes, Within x.scopes sc.id scopeID → PassesBy c x code cause sc

end Catching

section Finding
variable {c : StepCtx} {x : InstanceState} {code cause : String}

/-- What the scan of `findDirectBoundary` takes at one node. -/
theorem catch_iff {host : String} {n : Node} :
    (match n.spec with
      | .boundaryEvent e =>
        if e.attachedTo == host && isErrorBoundary e && boundaryErrorMatches c.eval e x.vars cause code then some (n.id, e)
        else none
      | _ => none) = some found ↔ n.id = found.1 ∧ n.spec = .boundaryEvent found.2 ∧ Catches c x code cause host found.2 := by
  obtain ⟨nodeID, e⟩ := found
  cases hspec : n.spec with
  | boundaryEvent b =>
    dsimp only
    split
    · rename_i hm
      simp only [Bool.and_eq_true, beq_iff_eq] at hm
      constructor
      · intro h
        obtain ⟨rfl, rfl⟩ := Prod.mk.inj (Option.some.inj h)
        exact ⟨rfl, rfl, hm.1.1, hm.1.2, hm.2⟩
      · rintro ⟨rfl, h, -⟩
        rw [NodeSpec.boundaryEvent.inj h]
    · rename_i hm
      refine ⟨(fun h => nomatch h), ?_⟩
      rintro ⟨-, h, hc⟩
      rw [← NodeSpec.boundaryEvent.inj h] at hc
      exact absurd (by simp [hc.attachedTo, hc.error, hc.matches]) hm
  | _ => exact ⟨(fun h => nomatch h), (fun h => nomatch h.2.1)⟩

theorem findDirectBoundary_some {d : ProcessDefinition} {host : String}
    (h : findDirectBoundary c.eval d host code x.vars cause = some found) :
    FirstCatch c x code cause d host found.1 found.2 := by
  obtain ⟨before, n, after, hnodes, hn, hbefore⟩ := List.findSome?_eq_some_iff.mp h
  obtain ⟨hid, hspec, hc⟩ := catch_iff.mp hn
  refine ⟨before, n, after, hnodes, hid, hspec, hc, fun m hm e hspec' hc' => ?_⟩
  have hfound : m.id = (m.id, e).1 ∧ m.spec = .boundaryEvent (m.id, e).2 ∧ Catches c x code cause host (m.id, e).2 :=
    ⟨rfl, hspec', hc'⟩
  exact nomatch (hbefore m hm).symm.trans (catch_iff.mpr hfound)

theorem findDirectBoundary_none {d : ProcessDefinition} {host : String}
    (h : findDirectBoundary c.eval d host code x.vars cause = none) : NoCatch c x code cause d host := by
  intro n hn e hspec hc
  have hfound : n.id = (n.id, e).1 ∧ n.spec = .boundaryEvent (n.id, e).2 ∧ Catches c x code cause host (n.id, e).2 :=
    ⟨rfl, hspec, hc⟩
  exact nomatch (List.findSome?_eq_none_iff.mp h n hn).symm.trans (catch_iff.mpr hfound)

/-! ## The walk up the scopes -/

theorem within_open {scopes : List Scope} {id : String} (h : Within scopes root id) :
    id = root ∨ ∃ sc ∈ scopes, sc.id = id := by
  cases h with
  | self => exact Or.inl rfl
  | child hmem _ => exact Or.inr ⟨_, hmem, rfl⟩

/-- What encloses a scope is the scope itself or encloses its parent. -/
theorem Names.within_parent {g : IDGenerator} {s : ControlState} (hn : Names g s) {sc : Scope}
    (hsc : sc ∈ s.scopes) (h : Within s.scopes root sc.id) : root = sc.id ∨ Within s.scopes root sc.parentID := by
  generalize hid : sc.id = id at h
  cases h with
  | self => exact Or.inl rfl
  | @child a hmem hin =>
    rw [List.inj_on_of_nodup_map hn.scopes.nodup hsc hmem hid]
    exact Or.inr hin

variable {g : IDGenerator}

theorem caughtNowhere_of_closed (hn : Names g x.toControlState) {scopeID : String}
    (hclosed : scopeID = "" ∨ ∀ sc ∈ x.scopes, sc.id ≠ scopeID) : CaughtNowhere c x code cause scopeID := by
  have hnone : ∀ sc ∈ x.scopes, sc.id ≠ scopeID := by
    rcases hclosed with rfl | h
    · exact fun sc hsc => (hn.scopes.minted sc hsc).ne_empty
    · exact h
  intro sc hsc hin
  rcases within_open hin with he | ⟨a, ha, he⟩
  · exact absurd he.symm (hnone sc hsc)
  · exact absurd he (hnone a ha)

/-- The walk of `findEnclosingBoundary` stops at the nearest activity that catches the error, or finds none. -/
theorem findEnclosingBoundary_spec (hn : Names g x.toControlState) (h : Nested c.top x.toControlState) (fuel : Nat) :
    ∀ scopeID, (scopeID = "" ∨ (∀ sc ∈ x.scopes, sc.id ≠ scopeID) ∨ ∃ sc ∈ x.scopes.take fuel, sc.id = scopeID) →
      (∃ sc pd nodeID e, CaughtBy c x code cause scopeID sc pd nodeID e ∧
        findEnclosingBoundary c x code cause (fuel + 1) scopeID = .ok (some ⟨nodeID, e, sc.id, sc.parentID, pd⟩)) ∨
      (CaughtNowhere c x code cause scopeID ∧ findEnclosingBoundary c x code cause (fuel + 1) scopeID = .ok none) := by
  -- a scope that is not open ends the walk
  have hstop : ∀ fuel scopeID, scopeID = "" ∨ (∀ sc ∈ x.scopes, sc.id ≠ scopeID) →
      CaughtNowhere c x code cause scopeID ∧ findEnclosingBoundary c x code cause (fuel + 1) scopeID = .ok none := by
    intro fuel scopeID hclosed
    refine ⟨caughtNowhere_of_closed hn hclosed, ?_⟩
    unfold findEnclosingBoundary
    split
    · rfl
    · rename_i hne
      have hnone := hclosed.resolve_left (by simpa using hne)
      rw [show scopeByID x.scopes scopeID = none from List.find?_eq_none.mpr (fun sc hsc => by simpa using hnone sc hsc)]
  induction fuel with
  | zero =>
    rintro scopeID (hroot | hclosed | ⟨sc, hsc, -⟩)
    · exact Or.inr (hstop 0 scopeID (Or.inl hroot))
    · exact Or.inr (hstop 0 scopeID (Or.inr hclosed))
    · rw [List.take_zero] at hsc
      cases hsc
  | succ fuel ih =>
    rintro scopeID (hroot | hclosed | ⟨sc, hsc, rfl⟩)
    · exact Or.inr (hstop _ scopeID (Or.inl hroot))
    · exact Or.inr (hstop _ scopeID (Or.inr hclosed))
    · have hmem := List.mem_of_mem_take hsc
      have hne : (sc.id == "") = false := by simpa using (hn.scopes.minted sc hmem).ne_empty
      obtain ⟨pd, hpd⟩ := h.resolves hn (h.parents sc hmem)
      cases hfind : findDirectBoundary c.eval pd sc.nodeID code x.vars cause with
      | some found =>
        obtain ⟨nodeID, e⟩ := found
        have hstep : findEnclosingBoundary c x code cause (fuel + 1 + 1) sc.id =
            .ok (some ⟨nodeID, e, sc.id, sc.parentID, pd⟩) := by
          rw [findEnclosingBoundary, hne, if_neg (by simp), hn.scopeByID_of_mem hmem]
          simp only [hpd, hfind]
        refine Or.inl ⟨sc, pd, nodeID, e, ⟨hmem, Within.self, hpd, findDirectBoundary_some hfind, ?_⟩, hstep⟩
        intro inner hinner hother hin hout
        -- two scopes are not inside each other
        rcases hn.within_parent hmem hout with he | hup
        · exact absurd he hother
        · exact absurd (hin.trans hup) (hn.not_within_self hmem)
      | none =>
        have hstep : findEnclosingBoundary c x code cause (fuel + 1 + 1) sc.id =
            findEnclosingBoundary c x code cause (fuel + 1) sc.parentID := by
          rw [findEnclosingBoundary, hne, if_neg (by simp), hn.scopeByID_of_mem hmem]
          simp only [hpd, hfind]
        have hpass : PassesBy c x code cause sc := by
          intro pd' hpd'
          obtain rfl := Except.ok.inj (hpd.symm.trans hpd')
          exact findDirectBoundary_none hfind
        have hup : ∀ inner ∈ x.scopes, Within x.scopes inner.id sc.id → inner = sc ∨
          Within x.scopes inner.id sc.parentID := by
          intro inner hinner hin
          rcases hn.within_parent hmem hin with he | hup
          · exact Or.inl (List.inj_on_of_nodup_map hn.scopes.nodup hinner hmem he)
          · exact Or.inr hup
        have hnext := ih sc.parentID ((h.parent_take hn hsc).imp (fun hr => hr) Or.inr)
        rw [hstep]
        rcases hnext with ⟨outer, pd', nodeID, e, hc, hres⟩ | ⟨hnone, hres⟩
        · refine Or.inl ⟨outer, pd', nodeID, e, ⟨hc.mem, Within.child hmem hc.encloses, hc.defn, hc.first, ?_⟩, hres⟩
          intro inner hinner hother hin hout
          rcases hup inner hinner hout with rfl | hout
          · exact hpass
          · exact hc.nearest inner hinner hother hin hout
        · refine Or.inr ⟨fun inner hinner hin => ?_, hres⟩
          rcases hup inner hinner hin with rfl | hin
          · exact hpass
          · exact hnone inner hinner hin

end Finding

/-! ## What a cancelled token takes with it -/

/-- The timer is one of the token's: armed for it, or for the task it waits on. -/
def Token.ownsTimer (t : Token) (tr : TimerRecord) : Bool :=
  tr.timerID != "" && ((t.awaitCommand != "" && tr.taskID == t.awaitCommand) || (t.id != "" && tr.token == t.id))

/-- The arm is one of the event gateway the token waits at. -/
def Token.ownsArm (t : Token) (ae : ArmedEvent) : Bool :=
  awaitsEventGateway t.awaitCommand && t.id != "" && ae.gatewayToken == t.id

/-- The boundary arm is one of the activity the token waits in. -/
def Token.hosts (t : Token) (ba : BoundaryArm) : Bool := t.id != "" && ba.hostToken == t.id

/-- What became of a task: the open task a cancelled token waited on is cancelled, every other task is as it was. -/
def TaskAfter (toks : List Token) (before after : HumanTask) : Prop :=
  after = before ∨ (after = before.cancel ∧ before.isOpen = true ∧ ∃ t ∈ toks, t.awaitCommand ≠ "" ∧
    t.awaitCommand = before.taskID)

section Cancelling
variable (s : InstanceState) (tok : Token) (at_ : Time) (kind : CloseKind)

theorem cancelTimersWhere_state (key : String) (keyOf : TimerRecord → String) :
    (s.cancelTimersWhere key "" keyOf).state =
      { s with timers := s.timers.filter (fun tr => !(key != "" && keyOf tr == key && tr.timerID != "")) } := by
  unfold InstanceState.cancelTimersWhere
  split
  · rename_i hkey
    rw [beq_iff_eq.mp hkey]
    simp
  · rename_i hkey
    have hne : (key != "") = true := by simpa using hkey
    simp only [hne, Bool.true_and]

theorem removeBoundaryArmsForHost_state (id : String) : (s.removeBoundaryArmsForHost id).state =
    { s with boundaries := s.boundaries.filter (fun ba => !(id != "" && ba.hostToken == id)) } := by
  unfold InstanceState.removeBoundaryArmsForHost
  split
  · rename_i hid
    rw [beq_iff_eq.mp hid]
    simp
  · rename_i hid
    have hne : (id != "") = true := by simpa using hid
    simp only [hne, Bool.true_and]

theorem removeArmedEventsForGateway_state (id : String) : (s.removeArmedEventsForGateway id).state =
    { s with armedEvents := s.armedEvents.filter (fun ae => !(id != "" && ae.gatewayToken == id)) } := by
  unfold InstanceState.removeArmedEventsForGateway
  split
  · rename_i hid
    rw [beq_iff_eq.mp hid]
    simp
  · rename_i hid
    have hne : (id != "") = true := by simpa using hid
    simp only [hne, Bool.true_and]

theorem ownArms_state : (if awaitsEventGateway tok.awaitCommand = true then s.removeArmedEventsForGateway tok.id
      else ⟨s, []⟩ : StepResult).state = { s with armedEvents := s.armedEvents.filter (fun ae => !tok.ownsArm ae) } := by
  unfold Token.ownsArm
  split
  · rename_i haw
    rw [removeArmedEventsForGateway_state]
    simp only [haw, Bool.true_and]
  · rename_i haw
    simp only [Bool.not_eq_true] at haw
    simp [haw]

theorem ownTimers_filter (timers : List TimerRecord) :
    (timers.filter (fun tr => !(tok.awaitCommand != "" && tr.taskID == tok.awaitCommand && tr.timerID != ""))).filter
      (fun tr => !(tok.id != "" && tr.token == tok.id && tr.timerID != "")) = timers.filter
        (fun tr => !tok.ownsTimer tr) := by
  rw [List.filter_filter]
  refine List.filter_congr (fun tr _ => ?_)
  unfold Token.ownsTimer
  cases tr.timerID != "" <;> simp [Bool.and_comm]

/-- The tasks once the token no longer waits. -/
def tasksWithout (tasks : List HumanTask) (found : Option HumanTask) : List HumanTask :=
  match found with
  | some task => if task.isOpen then updateFirst (fun t => t.taskID == tok.awaitCommand) HumanTask.cancel tasks else tasks
  | none => tasks

/-- What a cancelled token takes with it, and what it leaves. -/
structure Uncovers (y : InstanceState) : Prop where
  timers : y.timers = s.timers.filter (fun tr => !tok.ownsTimer tr)
  boundaries : y.boundaries = s.boundaries.filter (fun ba => !tok.hosts ba)
  armedEvents : y.armedEvents = s.armedEvents.filter (fun ae => !tok.ownsArm ae)
  eventSubs : y.eventTriggeredSubprocesses = s.eventTriggeredSubprocesses
  vars : y.vars = s.vars
  tasks : y.tasks = tasksWithout tok s.tasks (s.taskByID tok.awaitCommand)

theorem uncovers_cancelTokenWaits : Uncovers s tok (cancelTokenWaits s tok at_ kind).state := by
  unfold cancelTokenWaits InstanceState.cancelTimersByTaskID InstanceState.cancelTimersForToken
  dsimp only
  rw [cancelTimersWhere_state, cancelTimersWhere_state, removeBoundaryArmsForHost_state, ownArms_state]
  dsimp only
  rw [ownTimers_filter]
  have hkeep : ∀ y : InstanceState, Uncovers s tok y →
      Uncovers s tok ((y.removeIncidentsForToken tok.id).onControl (·.cancelToken tok at_ kind)) := by
    intro y hy
    unfold InstanceState.removeIncidentsForToken
    split
    · exact ⟨hy.timers, hy.boundaries, hy.armedEvents, hy.eventSubs, hy.vars, hy.tasks⟩
    · exact ⟨hy.timers, hy.boundaries, hy.armedEvents, hy.eventSubs, hy.vars, hy.tasks⟩
  refine hkeep _ ?_
  split
  · rename_i task htask
    have hfound : s.taskByID tok.awaitCommand = some task := htask
    split
    · rename_i hopen
      exact ⟨rfl, rfl, rfl, rfl, rfl, by rw [hfound, tasksWithout, if_pos hopen]; rfl⟩
    · rename_i hopen
      exact ⟨rfl, rfl, rfl, rfl, rfl, by rw [hfound, tasksWithout, if_neg hopen]⟩
  · rename_i htask
    have hnone : s.taskByID tok.awaitCommand = none := htask
    exact ⟨rfl, rfl, rfl, rfl, rfl, by rw [hnone, tasksWithout]⟩

/-- The tasks after the token no longer waits: only the open task it waited on is another one. -/
theorem taskAfter_without :
    List.Forall₂ (TaskAfter [tok]) s.tasks (tasksWithout tok s.tasks (s.taskByID tok.awaitCommand)) := by
  have hsame : ∀ tasks : List HumanTask, List.Forall₂ (TaskAfter [tok]) tasks tasks :=
    fun tasks => List.forall₂_same.mpr (fun t _ => Or.inl rfl)
  cases hfound : s.taskByID tok.awaitCommand with
  | none => exact hsame _
  | some task =>
    unfold tasksWithout
    dsimp only
    split
    · rename_i hopen
      have hne : tok.awaitCommand ≠ "" := by
        intro he
        rw [he] at hfound
        cases hfound
      have hfind : s.tasks.find? (fun t => t.taskID == tok.awaitCommand) = some task := by
        unfold InstanceState.taskByID at hfound
        rwa [if_neg (by simpa using hne)] at hfound
      obtain ⟨before, after, hl, hupd⟩ := updateFirst_append_of_find hfind
      have hid : task.taskID = tok.awaitCommand := by simpa using List.find?_some hfind
      rw [hupd HumanTask.cancel, hl]
      refine List.rel_append (hsame before) (List.Forall₂.cons ?_ (hsame after))
      exact Or.inr ⟨rfl, hopen, tok, List.mem_singleton_self tok, hne, hid.symm⟩
    · exact hsame _

end Cancelling

/-! ## What a cancelled subtree takes with it -/

theorem TaskAfter.trans {toks toks' : List Token} {a b d : HumanTask} (h : TaskAfter toks a b) (h' : TaskAfter toks' b d) :
    TaskAfter (toks ++ toks') a d := by
  have hleft : ∀ {t : HumanTask}, (∃ u ∈ toks, u.awaitCommand ≠ "" ∧ u.awaitCommand = t.taskID) →
      ∃ u ∈ toks ++ toks', u.awaitCommand ≠ "" ∧ u.awaitCommand = t.taskID :=
    fun ⟨u, hu, h⟩ => ⟨u, List.mem_append_left _ hu, h⟩
  rcases h with rfl | ⟨rfl, hopen, hin⟩
  · rcases h' with rfl | ⟨rfl, hopen, u, hu, h⟩
    · exact Or.inl rfl
    · exact Or.inr ⟨rfl, hopen, u, List.mem_append_right _ hu, h⟩
  · rcases h' with rfl | ⟨rfl, hopen', -⟩
    · exact Or.inr ⟨rfl, hopen, hleft hin⟩
    · cases hopen'

theorem forall₂_comp {α : Type} {R S T : α → α → Prop} (hcomp : ∀ a b d, R a b → S b d → T a d) {l m n : List α}
    (h : List.Forall₂ R l m) (h' : List.Forall₂ S m n) : List.Forall₂ T l n := by
  induction h generalizing n with
  | nil =>
    cases h'
    exact .nil
  | cons hab _ ih =>
    cases h' with
    | cons hbd hrest => exact .cons (hcomp _ _ _ hab hbd) (ih hrest)

/-- What cancelling a list of tokens takes away, and what it leaves. -/
structure UncoversAll (s : InstanceState) (toks : List Token) (y : InstanceState) : Prop where
  timers : y.timers = s.timers.filter (fun tr => !toks.any (fun t => t.ownsTimer tr))
  boundaries : y.boundaries = s.boundaries.filter (fun ba => !toks.any (fun t => t.hosts ba))
  armedEvents : y.armedEvents = s.armedEvents.filter (fun ae => !toks.any (fun t => t.ownsArm ae))
  eventSubs : y.eventTriggeredSubprocesses = s.eventTriggeredSubprocesses
  vars : y.vars = s.vars
  tasks : List.Forall₂ (TaskAfter toks) s.tasks y.tasks

theorem filter_not_any_cons {α : Type} (owns : Token → α → Bool) (tok : Token) (toks : List Token) (l : List α) :
    (l.filter (fun a => !owns tok a)).filter (fun a => !toks.any (fun t => owns t a)) =
      l.filter (fun a => !(tok :: toks).any (fun t => owns t a)) := by
  rw [List.filter_filter]
  refine List.filter_congr (fun a _ => ?_)
  rw [List.any_cons, Bool.not_or, Bool.and_comm]

theorem uncovers_cancelTokens (at_ : Time) (kind : CloseKind) (toks : List Token) (s : InstanceState) :
    UncoversAll s toks (cancelTokens at_ kind toks s).state := by
  induction toks generalizing s with
  | nil =>
    have htasks : List.Forall₂ (TaskAfter []) s.tasks s.tasks := List.forall₂_same.mpr (fun t _ => Or.inl rfl)
    refine ⟨?_, ?_, ?_, rfl, rfl, htasks⟩ <;> simp [cancelTokens]
  | cons tok toks ih =>
    have h1 := uncovers_cancelTokenWaits s tok at_ kind
    have h2 := ih (cancelTokenWaits s tok at_ kind).state
    unfold cancelTokens
    rw [StepResult.prepend_state]
    refine ⟨?_, ?_, ?_, h2.eventSubs.trans h1.eventSubs, h2.vars.trans h1.vars, ?_⟩
    · rw [h2.timers, h1.timers, filter_not_any_cons]
    · rw [h2.boundaries, h1.boundaries, filter_not_any_cons]
    · rw [h2.armedEvents, h1.armedEvents, filter_not_any_cons]
    · have htasks := h2.tasks
      rw [h1.tasks] at htasks
      exact forall₂_comp (R := TaskAfter [tok]) (S := TaskAfter toks) (T := TaskAfter (tok :: toks))
        (fun _ _ _ h h' => h.trans h') (taskAfter_without s tok) htasks


/-! ### Tokens and scopes -/

theorem cancelToken_tokens (s : ControlState) {tok : Token} (hne : tok.id ≠ "") (at_ : Time) (kind : CloseKind) :
    (s.cancelToken tok at_ kind).tokens = s.tokens.filter (fun t => t.id != tok.id) := by
  cases hfind : s.tokenByID tok.id with
  | some t =>
    obtain ⟨-, hid, -⟩ := s.tokenByID_some hfind
    obtain ⟨h, -, hshape⟩ := s.consumeTokenAs_shape t at_ kind
    unfold cancelToken
    rw [hfind]
    change (s.consumeTokenAs t at_ kind).tokens = _
    rw [hshape, hid, s.removeToken_of_ne hne]
  | none =>
    unfold cancelToken
    rw [hfind]
    unfold tokenByID at hfind
    rw [if_neg (by simpa using hne)] at hfind
    exact (List.filter_eq_self.mpr (fun t ht => by simpa using List.find?_eq_none.mp hfind t ht)).symm

theorem cancelListed_tokens (at_ : Time) (kind : CloseKind) (toks : List Token) (hne : ∀ t ∈ toks, t.id ≠ "")
    (s : ControlState) :
    (s.cancelListed at_ kind toks).tokens = s.tokens.filter (fun t => !toks.any (fun u => t.id == u.id)) := by
  induction toks generalizing s with
  | nil => simp [cancelListed]
  | cons tok toks ih =>
    have hrest := ih (fun t ht => hne t (List.mem_cons_of_mem _ ht)) (s.cancelToken tok at_ kind)
    refine hrest.trans ?_
    rw [cancelToken_tokens s (hne tok List.mem_cons_self)]
    exact filter_not_any_cons (fun u t => t.id == u.id) tok toks s.tokens

theorem filter_updateFirst_outside {α : Type} {p q : α → Bool} {f : α → α}
    (hp : ∀ a, p a = true → q a = false ∧ q (f a) = false) (l : List α) : (updateFirst p f l).filter q = l.filter q := by
  induction l with
  | nil => rfl
  | cons a l ih =>
    unfold updateFirst
    split
    · rename_i ha
      rw [List.filter_cons_of_neg (by simp [(hp a ha).2]), List.filter_cons_of_neg (by simp [(hp a ha).1])]
    · rw [List.filter_cons, List.filter_cons, ih]

/-- The scopes outside the subtree keep their records. -/
theorem archiveAll_outside (ids : List String) (s : ControlState) (q : String → Bool) (hq : ∀ id ∈ ids, q id = false) :
    (s.archiveAll ids).scopes.filter (fun sc => q sc.id) = s.scopes.filter (fun sc => q sc.id) := by
  induction ids generalizing s with
  | nil => rfl
  | cons id ids ih =>
    refine (ih (s.archiveCompensations id) (fun i hi => hq i (List.mem_cons_of_mem _ hi))).trans ?_
    unfold archiveCompensations
    split
    · rfl
    · split
      · rfl
      · refine filter_updateFirst_outside (fun sc hsc => ?_) s.scopes
        have hid : sc.id = id := by simpa using hsc
        exact ⟨hid ▸ hq id List.mem_cons_self, hid ▸ hq id List.mem_cons_self⟩

theorem teardownScopes_frame (ids : List String) (s : InstanceState) : (teardownScopes ids s).state.timers = s.timers ∧
    (teardownScopes ids s).state.boundaries = s.boundaries ∧ (teardownScopes ids s).state.armedEvents = s.armedEvents ∧
    (teardownScopes ids s).state.vars = s.vars ∧ (teardownScopes ids s).state.tasks = s.tasks ∧
    (teardownScopes ids s).state.eventTriggeredSubprocesses =
      s.eventTriggeredSubprocesses.filter (fun ea => !ids.contains ea.enclosingScopeID) := by
  induction ids generalizing s with
  | nil => exact ⟨rfl, rfl, rfl, rfl, rfl, (List.filter_eq_self.mpr (fun _ _ => rfl)).symm⟩
  | cons id ids ih =>
    unfold teardownScopes
    rw [StepResult.prepend_state]
    obtain ⟨htimers, hbound, harmed, hvars, htasks, hsubs⟩ :=
      ih ((s.removeEventTriggeredSubprocessArmsForScope id).state.onControl (·.archiveCompensations id))
    refine ⟨htimers, hbound, harmed, hvars, htasks, hsubs.trans ?_⟩
    change (s.eventTriggeredSubprocesses.filter (fun ea => !(ea.enclosingScopeID == id))).filter _ = _
    rw [List.filter_filter]
    refine List.filter_congr (fun ea _ => ?_)
    rw [List.contains_cons, Bool.not_or, Bool.and_comm]

open Classical in
/-- The subtree of a scope is cancelled: everything of it goes, and everything outside of it is as it was. -/
structure SubtreeCancelled (x : InstanceState) (root : String) (y : InstanceState) : Prop where
  tokens : y.tokens = x.tokens.filter (fun t => ¬ Within x.scopes root t.scopeID)
  scopes : y.scopes = x.scopes.filter (fun sc => ¬ Within x.scopes root sc.id)
  timers : y.timers = x.timers.filter (fun tr => ¬ ∃ t ∈ x.tokens, Within x.scopes root t.scopeID ∧ t.ownsTimer tr = true)
  boundaries : y.boundaries = x.boundaries.filter
    (fun ba => ¬ ∃ t ∈ x.tokens, Within x.scopes root t.scopeID ∧ t.hosts ba = true)
  armedEvents : y.armedEvents = x.armedEvents.filter
    (fun ae => ¬ ∃ t ∈ x.tokens, Within x.scopes root t.scopeID ∧ t.ownsArm ae = true)
  eventSubs : y.eventTriggeredSubprocesses = x.eventTriggeredSubprocesses.filter
    (fun ea => ¬ Within x.scopes root ea.enclosingScopeID)
  tasks : List.Forall₂ (TaskAfter (x.tokens.filter (fun t => Within x.scopes root t.scopeID))) x.tasks y.tasks
  vars : y.vars = x.vars

section Subtree
variable {c : StepCtx} {g : IDGenerator} {x : InstanceState}

/-- The tokens `cancelScopeSubtree` cancels. -/
def doomed (x : InstanceState) (root : String) : List Token :=
  x.tokens.filter (fun t => (descendantScopeIDs x.scopes root).contains t.scopeID)

theorem mem_doomed (hn : Names g x.toControlState) {t : Token} :
    t ∈ doomed x root ↔ t ∈ x.tokens ∧ Within x.scopes root t.scopeID := by
  rw [doomed, List.mem_filter, List.contains_iff_mem, hn.within_iff]

theorem any_doomed (hn : Names g x.toControlState) (p : Token → Bool) :
    (doomed x root).any p = true ↔ ∃ t ∈ x.tokens, Within x.scopes root t.scopeID ∧ p t = true := by
  rw [List.any_eq_true]
  constructor
  · rintro ⟨t, ht, hp⟩
    exact ⟨t, ((mem_doomed hn).mp ht).1, ((mem_doomed hn).mp ht).2, hp⟩
  · rintro ⟨t, ht, hin, hp⟩
    exact ⟨t, (mem_doomed hn).mpr ⟨ht, hin⟩, hp⟩

/-- What is left of a list whose entries belong to tokens. -/
theorem filter_doomed {α : Type} (hn : Names g x.toControlState) (owns : Token → α → Bool) (l : List α)
    [DecidablePred fun a => ¬ ∃ t ∈ x.tokens, Within x.scopes root t.scopeID ∧ owns t a = true] :
    l.filter (fun a => !(doomed x root).any (fun t => owns t a)) =
      l.filter (fun a => ¬ ∃ t ∈ x.tokens, Within x.scopes root t.scopeID ∧ owns t a = true) := by
  refine List.filter_congr (fun a _ => ?_)
  rw [Bool.eq_iff_iff, decide_eq_true_iff, Bool.not_eq_true', ← Bool.not_eq_true, any_doomed hn]

theorem doomed_tokens (hn : Names g x.toControlState) (root : String) (at_ : Time) (kind : CloseKind)
    [DecidablePred fun t : Token => ¬ Within x.scopes root t.scopeID] :
    (x.toControlState.cancelListed at_ kind (doomed x root)).tokens =
      x.tokens.filter (fun t => ¬ Within x.scopes root t.scopeID) := by
  have hids : ∀ t ∈ doomed x root, t.id ≠ "" := fun t ht => (hn.tokens.minted t ((mem_doomed hn).mp ht).1).ne_empty
  rw [cancelListed_tokens at_ kind _ hids]
  refine List.filter_congr (fun t ht => ?_)
  rw [Bool.eq_iff_iff, decide_eq_true_iff, Bool.not_eq_true', ← Bool.not_eq_true, any_doomed hn]
  refine not_congr ⟨?_, fun hin => ⟨t, ht, hin, by simp⟩⟩
  rintro ⟨u, hu, hin, hid⟩
  rwa [List.inj_on_of_nodup_map hn.tokens.nodup ht hu (by simpa using hid)]

theorem closed_scopes (hn : Names g x.toControlState) {sc : Scope} (hsc : sc ∈ x.scopes) {z : ControlState}
    (hz : z.scopes.map Scope.bare = x.scopes.map Scope.bare)
    (hkept : ∀ q : String → Bool, (∀ id ∈ x.toControlState.subtreeIDs sc.id, q id = false) →
      z.scopes.filter (fun a => q a.id) = x.scopes.filter (fun a => q a.id))
    [DecidablePred fun a : Scope => ¬ Within x.scopes sc.id a.id] :
    (z.closeScope sc.id).scopes = x.scopes.filter (fun a => ¬ Within x.scopes sc.id a.id) := by
  have hdesc : descendantScopeIDs z.scopes sc.id = descendantScopeIDs x.scopes sc.id := by
    rw [← descendantScopeIDs_bare z.scopes, hz, descendantScopeIDs_bare]
  have hopen : (scopeByID z.scopes sc.id).isNone = false := by
    obtain ⟨a, ha, hid, -, -⟩ := mem_bare hz.symm hsc
    rw [Option.isNone_eq_false_iff, scopeByID, List.find?_isSome]
    exact ⟨a, ha, by simpa using hid⟩
  unfold closeScope
  rw [if_neg (by simp [hopen]), hdesc, hkept (fun id => !(descendantScopeIDs x.scopes sc.id).contains id)]
  · refine List.filter_congr (fun a _ => ?_)
    rw [Bool.eq_iff_iff, decide_eq_true_iff, Bool.not_eq_true', ← Bool.not_eq_true, List.contains_iff_mem, hn.within_iff]
  · intro id hid
    rw [Bool.not_eq_false', List.contains_iff_mem]
    rcases List.mem_cons.mp hid with rfl | hid
    · exact (hn.within_iff _ _).mpr Within.self
    · have hin := (List.mem_filter.mp hid).2
      simp only [Bool.and_eq_true, List.contains_iff_mem] at hin
      exact hin.2

theorem subtree_contains (hn : Names g x.toControlState) (root : String) (id : String) :
    (x.toControlState.subtreeIDs root).contains id = true ↔ Within x.scopes root id := by
  rw [List.contains_iff_mem]
  constructor
  · intro hid
    rcases List.mem_cons.mp hid with rfl | hid
    · exact Within.self
    · have hin := (List.mem_filter.mp hid).2
      simp only [Bool.and_eq_true, List.contains_iff_mem] at hin
      exact (hn.within_iff root id).mp hin.2
  · intro hin
    by_cases he : id = root
    · exact he ▸ List.mem_cons_self
    · obtain ⟨a, ha, rfl⟩ := (within_open hin).resolve_left he
      refine List.mem_cons_of_mem _ (List.mem_filter.mpr ⟨List.mem_map_of_mem ha, ?_⟩)
      simp only [Bool.and_eq_true, bne_iff_ne, List.contains_iff_mem]
      exact ⟨he, (hn.within_iff root a.id).mpr hin⟩

/-- An error that is caught at a sub-process cancels the subtree of its scope and nothing else. -/
theorem subtreeCancelled_consumeErrScope (hn : Names g x.toControlState) {sc : Scope} (hsc : sc ∈ x.scopes) :
    SubtreeCancelled x sc.id (consumeErrScope c sc.id x).state := by
  classical
  have hu := uncovers_cancelTokens c.at_ .boundaryInterrupted (doomed x sc.id) x
  obtain ⟨htimers, hbound, harmed, hvars, htasks, hsubs⟩ := teardownScopes_frame (x.toControlState.subtreeIDs sc.id)
    (cancelTokens c.at_ .boundaryInterrupted (doomed x sc.id) x).state
  have hctl : (cancelScopeSubtree x sc.id c.at_ .boundaryInterrupted).state.toControlState =
      (x.toControlState.cancelListed c.at_ .boundaryInterrupted (doomed x sc.id)).archiveAll
        (x.toControlState.subtreeIDs sc.id) := by
    unfold cancelScopeSubtree
    rw [StepResult.prepend_state, teardownScopes_control, cancelTokens_control]
    rfl
  have hout := sameOutline (archiveAll_outline (x.toControlState.cancelListed c.at_ .boundaryInterrupted (doomed x sc.id))
    (x.toControlState.subtreeIDs sc.id))
  have hcancel := (cancelListed_scopes c.at_ .boundaryInterrupted (doomed x sc.id) x.toControlState).1
  refine ⟨?_, ?_, ?_, ?_, ?_, ?_, ?_, ?_⟩
  · change ((cancelScopeSubtree x sc.id c.at_ .boundaryInterrupted).state.toControlState.closeScope sc.id).tokens = _
    obtain ⟨p, hp⟩ := (cancelScopeSubtree x sc.id c.at_ .boundaryInterrupted).state.toControlState.closeScope_shape sc.id
    rw [hp, hctl]
    exact hout.tokens.trans (doomed_tokens hn sc.id c.at_ .boundaryInterrupted)
  · change ((cancelScopeSubtree x sc.id c.at_ .boundaryInterrupted).state.toControlState.closeScope sc.id).scopes = _
    rw [hctl]
    refine closed_scopes hn hsc (hout.scopes.trans (by rw [hcancel])) (fun q hq => ?_)
    rw [archiveAll_outside _ _ q hq, hcancel]
  · exact htimers.trans (hu.timers.trans (filter_doomed hn Token.ownsTimer x.timers))
  · exact hbound.trans (hu.boundaries.trans (filter_doomed hn Token.hosts x.boundaries))
  · exact harmed.trans (hu.armedEvents.trans (filter_doomed hn Token.ownsArm x.armedEvents))
  · refine hsubs.trans ?_
    rw [hu.eventSubs]
    refine List.filter_congr (fun ea _ => ?_)
    rw [Bool.eq_iff_iff, decide_eq_true_iff, Bool.not_eq_true', ← Bool.not_eq_true, subtree_contains hn]
  · have hlist : x.tokens.filter (fun t => Within x.scopes sc.id t.scopeID) = doomed x sc.id := by
      refine List.filter_congr (fun t _ => ?_)
      rw [Bool.eq_iff_iff, decide_eq_true_iff, List.contains_iff_mem, hn.within_iff]
    rw [hlist]
    have htask : (consumeErrScope c sc.id x).state.tasks =
        (cancelTokens c.at_ .boundaryInterrupted (doomed x sc.id) x).state.tasks := htasks
    rw [htask]
    exact hu.tasks
  · exact hvars.trans hu.vars

end Subtree

/-! ## Where an error goes -/

/-- The token is gone and nothing else is. -/
structure OnlyConsumed (x : InstanceState) (tok : Token) (y : InstanceState) : Prop where
  tokens : y.tokens = x.tokens.filter (fun t => t.id != tok.id)
  scopes : y.scopes = x.scopes
  timers : y.timers = x.timers
  boundaries : y.boundaries = x.boundaries
  armedEvents : y.armedEvents = x.armedEvents
  eventSubs : y.eventTriggeredSubprocesses = x.eventTriggeredSubprocesses
  tasks : y.tasks = x.tasks
  vars : y.vars = x.vars

/-- Where an error comes from: a token in an open scope fails in its activity, or an error end event throws, which names
no activity. -/
structure FailsAt (x : InstanceState) (scopeID node tokenID : String) : Prop where
  token : node ≠ "" → ∃ tok ∈ x.tokens, tok.id = tokenID ∧ tok.nodeID = node ∧ tok.scopeID = scopeID
  opened : node ≠ "" → scopeID = "" ∨ ∃ sc ∈ x.scopes, sc.id = scopeID

/-- A token is placed behind the boundary and the state is driven on. -/
def resumesFrom (drv : DriveLoop) (c : StepCtx) (y : InstanceState) (d : ProcessDefinition)
    (kind nodeID scopeID : String) (cmds : List Command) : EngineResult :=
  match outgoingFlows d nodeID with
  | [] => .error (plainError ("propagateError: " ++ kind ++ " " ++ quoted nodeID ++ " has no outgoing flow"))
  | f :: _ => thenDrive drv ⟨y.onControl (·.placeTokenInScope c.ids f.flow.target scopeID f.identity c.at_), cmds⟩

/-- What becomes of an error: a boundary of the failing activity takes it, else one of the nearest activity around it that
has a boundary for it, and without any it is unhandled. -/
inductive Routed (drv : DriveLoop) (c : StepCtx) (x : InstanceState) (scopeID node tokenID code cause : String)
    (raiseIncident : Bool) (out : EngineResult) : Prop
  | own (tok : Token) (own : ProcessDefinition) (nodeID : String) (e : BoundaryEvent) (y : InstanceState)
      (cmds : List Command)
      (hnode : node ≠ "") (hmem : tok ∈ x.tokens) (hid : tok.id = tokenID)
      (hdef : defForScope c.top x.scopes scopeID = .ok own) (hfirst : FirstCatch c x code cause own node nodeID e)
      (hframe : OnlyConsumed x tok y) (hout : out = resumesFrom drv c y own "direct boundary" nodeID scopeID cmds)
  | enclosing (sc : Scope) (pd : ProcessDefinition) (nodeID : String) (e : BoundaryEvent) (y : InstanceState)
      (cmds : List Command)
      (hown : node ≠ "" → ∃ own, defForScope c.top x.scopes scopeID = .ok own ∧ NoCatch c x code cause own node)
      (hcaught : CaughtBy c x code cause scopeID sc pd nodeID e) (hframe : SubtreeCancelled x sc.id y)
      (hout : out = resumesFrom drv c y pd "boundary error" nodeID sc.parentID cmds)
  | unhandled
      (hown : node ≠ "" → ∃ own, defForScope c.top x.scopes scopeID = .ok own ∧ NoCatch c x code cause own node)
      (hnowhere : CaughtNowhere c x code cause scopeID)
      (hout : out = handleUnhandledError drv c x scopeID node tokenID code raiseIncident)

section Routing
variable {drv : DriveLoop} {c : StepCtx} {x : InstanceState} {scopeID node tokenID : String}

/-- Every command of a fire-once action apart, the state is the same. -/
theorem emitFireOnceAction_state (g : IDGenerator) (x : InstanceState) (name : String) :
    (emitFireOnceAction g x name).state = x ∨ (emitFireOnceAction g x name).state = { x with cmdSeq := x.cmdSeq + 1 } := by
  unfold emitFireOnceAction
  split
  · exact Or.inl rfl
  · exact Or.inr rfl

theorem onlyConsumed_consumeFailing {tok : Token} (hmem : tok ∈ x.tokens) (hid : tok.id = tokenID) (hne : tokenID ≠ "")
    (hnodup : (x.tokens.map (·.id)).Nodup) : OnlyConsumed x tok (consumeFailing c scopeID node tokenID x).state := by
  have hfind : x.tokenByID tokenID = some tok := by
    unfold ControlState.tokenByID
    rw [if_neg (by simpa using hne)]
    cases hfind : x.tokens.find? (fun t => t.id == tokenID) with
    | none => exact absurd (List.find?_eq_none.mp hfind tok hmem) (by simp [hid])
    | some t =>
      have ht : t.id = tok.id := (show t.id = tokenID by simpa using List.find?_some hfind).trans hid.symm
      rw [List.inj_on_of_nodup_map hnodup (List.mem_of_find?_eq_some hfind) hmem ht]
  unfold consumeFailing
  rw [hfind]
  obtain ⟨h, -, hshape⟩ := x.toControlState.consumeTokenAs_shape tok c.at_ .boundaryInterrupted
  have hrem := x.toControlState.removeToken_of_ne (hid ▸ hne : tok.id ≠ "")
  refine ⟨?_, ?_, rfl, rfl, rfl, rfl, rfl, rfl⟩
  · change (x.toControlState.consumeTokenAs tok c.at_ .boundaryInterrupted).tokens = _
    rw [hshape, hrem]
  · change (x.toControlState.consumeTokenAs tok c.at_ .boundaryInterrupted).scopes = _
    rw [hshape, hrem]

theorem routed_own {g : IDGenerator} (hn : Names g x.toControlState) (hsrc : FailsAt x scopeID node tokenID)
    (hnode : node ≠ "") {own : ProcessDefinition} (hdef : defForScope c.top x.scopes scopeID = .ok own) {code cause : String}
    (hfind : findDirectBoundary c.eval own node code x.vars cause = some found)
    (raiseIncident : Bool) : Routed drv c x scopeID node tokenID code cause raiseIncident
      (routeToBoundary drv c x own found.1 found.2 "direct boundary" scopeID (consumeFailing c scopeID node tokenID)) := by
  obtain ⟨tok, hmem, hid, -, -⟩ := hsrc.token hnode
  have hne : tokenID ≠ "" := hid ▸ (hn.tokens.minted tok hmem).ne_empty
  refine .own tok own found.1 found.2
    (consumeFailing c scopeID node tokenID (emitFireOnceAction c.ids x found.2.action).state).state
    ((emitFireOnceAction c.ids x found.2.action).commands ++
      (consumeFailing c scopeID node tokenID (emitFireOnceAction c.ids x found.2.action).state).commands)
    hnode hmem hid hdef (findDirectBoundary_some hfind) ?_ rfl
  rcases emitFireOnceAction_state c.ids x found.2.action with he | he
  · rw [he]
    exact onlyConsumed_consumeFailing hmem hid hne hn.tokens.nodup
  · rw [he]
    have h : OnlyConsumed { x with cmdSeq := x.cmdSeq + 1 } tok
        (consumeFailing c scopeID node tokenID { x with cmdSeq := x.cmdSeq + 1 }).state :=
      onlyConsumed_consumeFailing hmem hid hne hn.tokens.nodup
    exact ⟨h.tokens, h.scopes, h.timers, h.boundaries, h.armedEvents, h.eventSubs, h.tasks, h.vars⟩

theorem subtreeCancelled_fired {g : IDGenerator} (hn : Names g x.toControlState) {sc : Scope} (hsc : sc ∈ x.scopes)
    (action : String) : SubtreeCancelled x sc.id
      (consumeErrScope c sc.id (emitFireOnceAction c.ids x action).state).state := by
  rcases emitFireOnceAction_state c.ids x action with he | he
  · rw [he]
    exact subtreeCancelled_consumeErrScope hn hsc
  · rw [he]
    have hn' : Names g { x with cmdSeq := x.cmdSeq + 1 }.toControlState :=
      hn.of_shrinks ((Names.Shrinks.refl x.toControlState).thenSame (by rfl))
    have h : SubtreeCancelled { x with cmdSeq := x.cmdSeq + 1 } sc.id
        (consumeErrScope c sc.id { x with cmdSeq := x.cmdSeq + 1 }).state := subtreeCancelled_consumeErrScope hn' hsc
    exact ⟨h.tokens, h.scopes, h.timers, h.boundaries, h.armedEvents, h.eventSubs, h.tasks, h.vars⟩

/-- Behind the boundaries of the failing activity come those of the activities around it. -/
theorem routed_around {g : IDGenerator} (hn : Names g x.toControlState) (h : Nested c.top x.toControlState)
    {code cause : String}
    (hown : node ≠ "" → ∃ own, defForScope c.top x.scopes scopeID = .ok own ∧ NoCatch c x code cause own node)
    (raiseIncident : Bool) {out : EngineResult}
    (hfound : ∀ h, findEnclosingBoundary c x code cause (x.scopes.length + 1) scopeID = .ok (some h) →
      out = routeToBoundary drv c x h.lookupDef h.nodeID h.event "boundary error" h.targetScopeID
        (consumeErrScope c h.errScopeID))
    (hnone : findEnclosingBoundary c x code cause (x.scopes.length + 1) scopeID = .ok none →
      out = handleUnhandledError drv c x scopeID node tokenID code raiseIncident) :
    Routed drv c x scopeID node tokenID code cause raiseIncident out := by
  have hsite : scopeID = "" ∨ (∀ sc ∈ x.scopes, sc.id ≠ scopeID) ∨ ∃ sc ∈ x.scopes.take x.scopes.length, sc.id = scopeID := by
    rw [List.take_length]
    by_cases hopen : ∃ sc ∈ x.scopes, sc.id = scopeID
    · exact Or.inr (Or.inr hopen)
    · exact Or.inr (Or.inl (fun sc hsc he => hopen ⟨sc, hsc, he⟩))
  rcases findEnclosingBoundary_spec hn h x.scopes.length scopeID hsite with ⟨sc, pd, nodeID, e, hcaught, hres⟩ |
    ⟨hnowhere, hres⟩
  · refine .enclosing sc pd nodeID e (consumeErrScope c sc.id (emitFireOnceAction c.ids x e.action).state).state
      ((emitFireOnceAction c.ids x e.action).commands ++
        (consumeErrScope c sc.id (emitFireOnceAction c.ids x e.action).state).commands)
      hown hcaught (subtreeCancelled_fired hn hcaught.mem e.action) (hfound _ hres)
  · exact .unhandled hown hnowhere (hnone hres)

end Routing

/-- **An error goes to the boundary nearest to where it was thrown.** In every state a step of a run goes through, the first
matching boundary of the failing activity takes it, else the first matching one of the nearest sub-process around it, and
an error is unhandled only where none of them has one; what is cancelled is the failing token, or the subtree of the
sub-process that caught the error and nothing outside of it. -/
theorem error_routed_innermost {d : ProcessDefinition} {gen : Option IDGenerator} {inst : String} {calls : List Call}
    {x0 x : InstanceState} (hrun : Run d gen inst calls x0) {trg : TriggerBody}
    (hpath : Moves d (runIDs gen inst) trg x0.toControlState x.toControlState) {c : StepCtx} (htop : c.top = d)
    {scopeID node tokenID : String} (hsrc : FailsAt x scopeID node tokenID) (drv : DriveLoop)
    (code : String) (cause : Option String) (raiseIncident : Bool) :
    Routed drv c x scopeID node tokenID code (cause.getD code) raiseIncident
      (propagateError drv c x scopeID node tokenID code cause raiseIncident) := by
  subst htop
  have hwf : Wf (runIDs gen inst) x0.toControlState := (Run.sound hrun).wf
  have hn : Names (runIDs gen inst) x.toControlState := (Moves.wf hwf hpath).names
  have hnested : Nested c.top x.toControlState := Moves.nested hwf hrun.nested hpath
  unfold propagateError directAttachmentDef
  dsimp only
  by_cases hnode : node = ""
  · rw [if_pos (by simpa using hnode)]
    refine routed_around hn hnested (fun hne => absurd hnode hne) raiseIncident (fun h hres => ?_) (fun hres => ?_)
    · simp [bind, Except.bind, hres]
    · simp [bind, Except.bind, hres]
  · rw [if_neg (by simpa using hnode)]
    obtain ⟨own, hdef⟩ := hnested.resolves hn (hsrc.opened hnode)
    rw [hdef]
    cases hfind : findDirectBoundary c.eval own node code x.vars (cause.getD code) with
    | some found =>
      have h : Routed drv c x scopeID node tokenID code (cause.getD code) raiseIncident _ :=
        routed_own hn hsrc hnode hdef hfind raiseIncident
      simpa [bind, Except.bind, hfind] using h
    | none =>
      refine routed_around hn hnested (fun _ => ⟨own, hdef, findDirectBoundary_none hfind⟩) raiseIncident
        (fun h hres => ?_) (fun hres => ?_)
      · simp [bind, Except.bind, hfind, hres]
      · simp [bind, Except.bind, hfind, hres]

/-- A failing task in a sub-process. -/
def failingInside : ProcessDefinition where
  id := "inner"
  version := 1
  nodes := [startNode "ns", serviceNode "a" "", endNode "ne"]
  flows := [flowOf "n1" "ns" "a", flowOf "n2" "a" "ne"]

/-- The sub-process has a catch-all boundary and, behind it, one for the code. -/
def caughtTwice : ProcessDefinition where
  id := "outer"
  version := 1
  nodes := [startNode "s", subProcessNode "sp" failingInside,
    { id := "any", spec := .boundaryEvent { attachedTo := "sp" } },
    { id := "code", spec := .boundaryEvent { attachedTo := "sp", errorCode := "E" } },
    userNode "x", userNode "y", endNode "e"]
  flows := [flowOf "f1" "s" "sp", flowOf "f2" "sp" "e", flowOf "f3" "any" "x", flowOf "f4" "code" "y", flowOf "f5" "x" "e",
    flowOf "f6" "y" "e"]

/-- The error of a task in the sub-process goes the way of the nearest activity around it. -/
theorem failing_task_routed : ∃ x, Run caughtTwice none "i" (callsFrom 1 [.startInstance [] ""]) x ∧
    FailsAt x "i-s1" "a" "i-t2" ∧
    Routed (fun s => .ok ⟨s, []⟩) (stepCtx caughtTwice x ⟨2, .cancelRequested⟩ plainOptions) x "i-s1" "a" "i-t2" "E" "E" false
      (propagateError (fun s => .ok ⟨s, []⟩)
        (stepCtx caughtTwice x ⟨2, .cancelRequested⟩ plainOptions) x "i-s1" "a" "i-t2" "E"
        none false) := by
  have hplay : playsTo caughtTwice [.startInstance [] ""] (fun x =>
      x.tokens.any (fun t => t.id == "i-t2" && t.nodeID == "a" && t.scopeID == "i-s1") &&
        x.scopes.any (fun sc => sc.id == "i-s1")) = true := by decide
  obtain ⟨x, hrun, hP⟩ := run_of_playsTo hplay
  simp only [Bool.and_eq_true, List.any_eq_true, beq_iff_eq] at hP
  obtain ⟨⟨tok, hmem, ⟨hid, hnode⟩, hscope⟩, sc, hsc, hopen⟩ := hP
  have hsrc : FailsAt x "i-s1" "a" "i-t2" := ⟨fun _ => ⟨tok, hmem, hid, hnode, hscope⟩, fun _ => Or.inr ⟨sc, hsc, hopen⟩⟩
  have hstay : Moves caughtTwice (runIDs none "i") .cancelRequested x.toControlState x.toControlState :=
    Relation.ReflTransGen.refl
  exact ⟨x, hrun, hsrc, error_routed_innermost hrun hstay rfl hsrc _ "E" none false⟩

/-- The catch-all boundary takes an error that the boundary behind it names. -/
theorem catch_all_first : Accepted asciiTables caughtTwice ∧
    ∃ x r y, Run caughtTwice none "i" (callsFrom 1 [.startInstance [] ""]) x ∧
      step 50 caughtTwice x ⟨2, .actionFailed "i-c1" "E" false 0 none⟩ plainOptions = .ok r ∧
      Steps caughtTwice none r.state (callsFrom 3 []) y ∧
      (x.tokens.any (fun t => t.nodeID == "a") && r.state.tokens.all (fun t => t.nodeID == "x") &&
        r.state.tokens.length == 1) = true := by
  refine ⟨by decide, ?_⟩
  exact run_of_playsThrough (by decide)

end Wrkflw
