import Wrkflw.Runtime.ActionableView
import Wrkflw.Definition.Validate
import Wrkflw.Machine.Run

/-!
# The next steps of a nested task

The view lists the open tasks, each with the flows out of its node. It looks the node up in the root definition, so
that a task inside a sub-process is offered the flows of a root node of the same id, or none. `next_steps_exact_iff` :
the view is right exactly when the root definition has, out of each open task's node, the flows the definition of its
token's scope has.
-/

namespace Wrkflw

/-- The token waits for the task, in a scope that executes the definition. -/
structure WaitsIn (p : ProcessDefinition) (x : InstanceState) (ht : HumanTask) (t : Token) (d : ProcessDefinition) :
    Prop where
  mem : t ∈ x.tokens
  await : t.awaitCommand = ht.taskID
  defn : defForScope p x.scopes t.scopeID = .ok d

/-- The view lists the open tasks in their order, and offers each the flows out of its node in the definition of its scope. -/
structure NextStepsExact (p : ProcessDefinition) (x : InstanceState) : Prop where
  tasks : (newActionableView x (some p)).openTasks.map (fun a => (a.taskID, a.nodeID, a.state, a.claim, a.candidates)) =
    (x.tasks.filter (·.isOpen)).map (fun ht => (ht.taskID, ht.nodeID, ht.state.toText, ht.claim, ht.candidates))
  steps : ∀ ht ∈ x.tasks, ht.isOpen = true → ∀ t d, WaitsIn p x ht t d →
    ∀ a ∈ (newActionableView x (some p)).openTasks, a.taskID = ht.taskID → a.nodeID = ht.nodeID →
      a.allowedActions = (d.outgoing ht.nodeID).map nextAction

/-- The flows out of a node are told by their next actions: their source is the node. -/
theorem outgoing_ext {p d : ProcessDefinition} {nodeID : String} :
    (p.outgoing nodeID).map nextAction = (d.outgoing nodeID).map nextAction ↔ p.outgoing nodeID = d.outgoing nodeID := by
  have hsource : ∀ {d : ProcessDefinition}, ∀ f ∈ d.outgoing nodeID, f.source = nodeID := by
    intro d f hf
    simpa using (List.mem_filter.mp hf).2
  have hlift : ∀ {l l' : List SequenceFlow}, (∀ f ∈ l, f.source = nodeID) → (∀ f ∈ l', f.source = nodeID) →
      l.map nextAction = l'.map nextAction → l = l' := by
    intro l
    induction l with
    | nil =>
      intro l' _ _ h
      exact (List.map_eq_nil_iff.mp h.symm).symm
    | cons f l ih =>
      intro l' hl hl' h
      cases l' with
      | nil => cases h
      | cons f' l' =>
        obtain ⟨hhead, htail⟩ := List.cons.inj h
        obtain ⟨hid, htarget, hcond, hdef⟩ := NextAction.mk.inj hhead
        have hsame : f = f' := by
          cases f
          cases f'
          have h1 := hl _ List.mem_cons_self
          have h2 := hl' _ List.mem_cons_self
          simp_all
        rw [hsame, ih (fun g hg => hl g (List.mem_cons_of_mem _ hg)) (fun g hg => hl' g (List.mem_cons_of_mem _ hg)) htail]
  exact ⟨hlift hsource hsource, fun h => h ▸ rfl⟩

/-- Where the view is right, the root has the flows of the task's own node. -/
theorem NextStepsExact.same_flows {p d : ProcessDefinition} {x : InstanceState} (h : NextStepsExact p x) {ht : HumanTask}
    (hht : ht ∈ x.tasks) (hopen : ht.isOpen = true) {t : Token} (hw : WaitsIn p x ht t d) :
    p.outgoing ht.nodeID = d.outgoing ht.nodeID := by
  have hmem : actionableTask (some p) ht ∈ (newActionableView x (some p)).openTasks :=
    List.mem_map_of_mem (List.mem_filter.mpr ⟨hht, hopen⟩)
  exact outgoing_ext.mp (h.steps ht hht hopen t d hw _ hmem rfl rfl)

/-- The view is right about every open task exactly when the definition of each task's scope has the root's flows out of the
task's node. At the root it has. -/
theorem next_steps_exact_iff (p : ProcessDefinition) (x : InstanceState) :
    NextStepsExact p x ↔ ∀ ht ∈ x.tasks, ht.isOpen = true → ∀ t d, WaitsIn p x ht t d →
      t.scopeID = "" ∨ p.outgoing ht.nodeID = d.outgoing ht.nodeID := by
  constructor
  · exact fun h ht hht hopen t d hw => Or.inr (h.same_flows hht hopen hw)
  · intro h
    refine ⟨?_, fun ht hht hopen t d hw a ha hid hnode => ?_⟩
    · unfold newActionableView
      rw [List.map_map]
      rfl
    · obtain ⟨ht', -, rfl⟩ := List.mem_map.mp ha
      change (p.outgoing ht'.nodeID).map nextAction = _
      rw [show ht'.nodeID = ht.nodeID from hnode]
      rcases h ht hht hopen t d hw with hroot | hsame
      · have hd := hw.defn
        rw [hroot] at hd
        rw [show p = d from Except.ok.inj hd]
      · rw [hsame]

/-! ## A review inside a sub-process -/

/-- Both definitions have a task `t`; the nested one is left along `g2`, the root's along `f3`. -/
def nestedReview : ProcessDefinition :=
  ⟨"d", 1, [{ id := "s", spec := .startEvent {} },
    { id := "p",
      spec := .subProcess {} (some ⟨"in", 1, [{ id := "s", spec := .startEvent {} }, { id := "t", spec := .userTask {} },
      { id := "x", spec := .endEvent {} }], [⟨"g1", "s", "t", "", false⟩, ⟨"g2", "t", "x", "", false⟩], []⟩) },
    { id := "t", spec := .userTask {} }, { id := "e", spec := .endEvent {} }],
    [⟨"f1", "s", "p", "", false⟩, ⟨"f2", "p", "t", "", false⟩, ⟨"f3", "t", "e", "", false⟩], []⟩

/-- The one open task waits inside the sub-process, and the view offers it the root's flow. -/
def offersOther (x : InstanceState) : Bool :=
  match x.tasks, x.tokens with
  | [ht], [t] => ht.isOpen && t.awaitCommand == ht.taskID && ht.nodeID == "t" &&
      (match defForScope nestedReview x.scopes t.scopeID with
        | .ok d => (d.outgoing "t").map (·.id) == ["g2"]
        | .error _ => false) &&
      (newActionableView x (some nestedReview)).openTasks.map (·.allowedActions) == [[⟨"f3", "e", "", false⟩]]
  | _, _ => false

theorem nested_task_offered_other_flow : Accepted asciiTables nestedReview ∧
    ∃ x, Run nestedReview none "i" (callsFrom 1 [.startInstance [] ""]) x ∧ ¬ NextStepsExact nestedReview x ∧
      (newActionableView x (some nestedReview)).openTasks.map (·.allowedActions) = [[⟨"f3", "e", "", false⟩]] := by
  have hplay : playsTo nestedReview [.startInstance [] ""] offersOther = true := by decide
  obtain ⟨x, hrun, hP⟩ := run_of_playsTo hplay
  refine ⟨by decide, x, hrun, ?_⟩
  unfold offersOther at hP
  split at hP
  · rename_i ht t htasks htokens
    simp only [Bool.and_eq_true, beq_iff_eq] at hP
    obtain ⟨⟨⟨⟨hopen, hawait⟩, hnode⟩, hdefn⟩, hview⟩ := hP
    refine ⟨fun hexact => ?_, hview⟩
    cases hd : defForScope nestedReview x.scopes t.scopeID with
    | error e =>
      rw [hd] at hdefn
      cases hdefn
    | ok d =>
      rw [hd] at hdefn
      replace hdefn : ((d.outgoing "t").map (·.id) == ["g2"]) = true := hdefn
      have hw : WaitsIn nestedReview x ht t d := ⟨htokens ▸ List.mem_singleton_self t, hawait, hd⟩
      have hsame := hexact.same_flows (htasks ▸ List.mem_singleton_self ht) hopen hw
      rw [hnode] at hsame
      rw [← hsame] at hdefn
      exact absurd hdefn (by decide)
  · cases hP

end Wrkflw
