import Wrkflw.Machine.LedgerSteps
import Wrkflw.Machine.Run

/-!
# History

The history of an instance mirrors its tokens. `Mirrors` is the correspondence of open visits and tokens, `KeepsClosed` says
that closed visits stay, and `history_mirrors_tokens` is both over every run, with the order of the times.
-/

namespace Wrkflw

open ControlState

/-- The open visits and the tokens are one-to-one, by token and node. A node without a name has no visit that could be closed,
and a token that cannot leave its node has closed its visit. -/
structure Mirrors (d : ProcessDefinition) (x : InstanceState) : Prop where
  tokens : (x.tokens.map (·.id)).Nodup
  visits : ((openVisits x.history).map (·.tokenID)).Nodup
  held : ∀ v ∈ openVisits x.history, ∃ t ∈ x.tokens, t.id = v.tokenID ∧ t.nodeID = v.nodeID
  shown : ∀ t ∈ x.tokens, t.nodeID ≠ "" → ¬ DeadEnd d x.trace t.scopeID t.nodeID →
    ∃ v ∈ openVisits x.history, v.tokenID = t.id ∧ v.nodeID = t.nodeID

/-- No trigger comes before the last. -/
def Ordered (calls : List Call) : Prop := calls.Pairwise (fun a b => a.trigger.occurredAt ≤ b.trigger.occurredAt)

/-- The books of a state the calls led to. -/
structure Booked (told : Prop) (d : ProcessDefinition) (gen : Option IDGenerator) (inst : String) (calls : List Call)
    (x : InstanceState) : Prop where
  books : ∃ c : StepCtx, c.top = d ∧ c.ids = runIDs gen inst ∧ Ledger c ⟨Ordered calls, told⟩ x.history [] x.toControlState
  late : Ordered calls → ∀ v ∈ x.history, ∀ at_, (∀ call ∈ calls, call.trigger.occurredAt ≤ at_) → v.enteredAt ≤ at_

/-- A new step opens the books of the last. -/
theorem Ledger.reopen {c c' : StepCtx} {early early' told : Prop} {h0 : List NodeVisit} {s : ControlState}
    (h : Ledger c ⟨early, told⟩ h0 [] s) (htop : c'.top = c.top) (hids : c'.ids = c.ids) (hearly : early' → early)
    (hlate : early' → ∀ v ∈ s.history, v.enteredAt ≤ c'.at_) : Ledger c' ⟨early', told⟩ s.history [] s := by
  refine ⟨?_, h.ids, h.single, h.held, h.gone, h.opened, ?_, KeepsClosed.refl _, fun he v hv => ?_, ?_, ?_⟩
  · rw [hids]
    exact h.minted
  · rw [htop]
    exact h.shown
  · exact ⟨hlate he v hv, (h.times (hearly he) v hv).2⟩
  · rw [htop]
    exact h.routed
  · rw [htop]
    exact h.resumes

namespace Booked
variable {told : Prop} {d : ProcessDefinition} {gen : Option IDGenerator} {inst : String}
  {calls : List Call} {x : InstanceState}

theorem blank (told : Prop) (d : ProcessDefinition) (gen : Option IDGenerator) (inst : String) :
    Booked told d gen inst [] { instanceID := inst } := by
  refine ⟨⟨{ top := d, ids := runIDs gen inst, at_ := 0, opt := plainOptions }, rfl, rfl, ?_⟩, fun _ v hv => ?_⟩
  · exact ⟨nofun, List.nodup_nil, List.nodup_nil, nofun, nofun, nofun, nofun, KeepsClosed.refl _,
      fun _ => nofun, fun _ => nofun,
      Or.inl rfl⟩
  · cases hv

/-- One call keeps the books and what was closed. -/
theorem step (h : Booked told d gen inst calls x) (hinst : x.instanceID = inst) (htold : told → x.DeadlinesTold) {call : Call}
    {r : StepResult} (hgen : call.opt.idGenerator = gen) (hstep : Wrkflw.step call.fuel d x call.trigger call.opt = .ok r) :
    Booked told d gen inst (calls ++ [call]) r.state ∧ KeepsClosed x.history r.state.history := by
  obtain ⟨⟨c, htop, hids, hled⟩, hlate⟩ := h
  have hids' : (stepCtx d x call.trigger call.opt).ids = runIDs gen inst := by
    change call.opt.ids x.instanceID = _
    unfold StepOptions.ids runIDs
    rw [hgen, hinst]
  have hbefore : Ordered (calls ++ [call]) → Ordered calls ∧ ∀ c ∈ calls, c.trigger.occurredAt ≤ call.trigger.occurredAt := by
    intro hord
    obtain ⟨hord, -, hle⟩ := List.pairwise_append.mp hord
    exact ⟨hord, fun c hc => hle c hc call (List.mem_singleton.mpr rfl)⟩
  have hopened : Logged (stepCtx d x call.trigger call.opt) ⟨Ordered (calls ++ [call]), told⟩ x.history x :=
    hled.reopen htop.symm (hids'.trans hids.symm) (fun hord => (hbefore hord).1)
      (fun hord v hv => hlate (hbefore hord).1 v hv _ (hbefore hord).2)
  have hafter := step_logged hopened htold hstep
  refine ⟨⟨⟨stepCtx d x call.trigger call.opt, rfl, hids', ?_⟩, fun hord v hv at_ hall => ?_⟩, hafter.kept⟩
  · exact hafter.reopen rfl rfl id (fun hord v hv => (hafter.times hord v hv).1)
  · have hentered := (hafter.times hord v hv).1
    exact hentered.trans (hall call (List.mem_append_right _ (List.mem_singleton.mpr rfl)))

theorem run (htold : ∀ {calls x}, Run d gen inst calls x → told → x.DeadlinesTold) (h : Run d gen inst calls x) :
    Booked told d gen inst calls x := by
  induction h with
  | refl => exact blank told d gen inst
  | tail hpre call r hgen hstep ih =>
    exact (ih.step (Steps.sound hpre (Run.blank_sound gen inst)).instanceID (htold hpre) hgen hstep).1

theorem mirrors (h : Booked told d gen inst calls x) : Mirrors d x := by
  obtain ⟨⟨c, rfl, -, hled⟩, -⟩ := h
  refine ⟨hled.ids, hled.single, hled.held, fun t ht hnamed hleads => ?_⟩
  rcases hled.shown t ht (by simp) with hno | hdead | hvisit
  · exact absurd hno hnamed
  · exact absurd hdead hleads
  · exact hvisit

/-- What was closed stays so in every later state. -/
theorem keepsClosed (h : Booked False d gen inst calls x) (hx : Steps.Sound gen inst x) {later : List Call}
    {y : InstanceState}
    (hlater : Steps d gen x later y) : Booked False d gen inst (calls ++ later) y ∧ KeepsClosed x.history y.history := by
  induction hlater with
  | refl =>
    rw [List.append_nil]
    exact ⟨h, KeepsClosed.refl _⟩
  | tail hpre call r hgen hstep ih =>
    obtain ⟨hbooked, hkept⟩ := ih
    obtain ⟨hnext, hone⟩ := hbooked.step (Steps.sound hpre hx).instanceID False.elim hgen hstep
    rw [← List.append_assoc]
    exact ⟨hnext, hkept.trans hone⟩

end Booked

/-- In every state of a run the open visits and the tokens are one-to-one, but for tokens that cannot leave their
node; a visit that was left is never written again; and no visit was left before it began, if no trigger came before
the last. -/
theorem history_mirrors_tokens {d : ProcessDefinition} {gen : Option IDGenerator} {inst : String} {calls : List Call}
    {x : InstanceState} (hrun : Run d gen inst calls x) :
    Mirrors d x ∧ (∀ later y, Steps d gen x later y → KeepsClosed x.history y.history) ∧
      (Ordered calls → ∀ v ∈ x.history, ∀ left, v.leftAt = some left → v.enteredAt ≤ left) := by
  have hbooked := Booked.run (fun _ => False.elim) hrun
  refine ⟨hbooked.mirrors, fun later y hlater => (hbooked.keepsClosed hrun.sound hlater).2, fun hord v hv left hleft => ?_⟩
  obtain ⟨c, -, -, hled⟩ := hbooked.books
  exact (hled.times hord v hv).2 left hleft

/-- A service task between the start and the end. -/
def servesOnce : ProcessDefinition := rowOf "serves" [serviceNode "a" ""]

/-- The token waits for the service task: the start was left and the task has the only open visit. -/
theorem waiting_token_mirrored : ∃ x calls, Run servesOnce none "i" calls x ∧ Mirrors servesOnce x ∧
    x.tokens.length = 1 ∧ (openVisits x.history).map (·.nodeID) = ["a"] ∧ (∃ v ∈ x.history, v.leftAt ≠ none) ∧
    (∀ later y, Steps servesOnce none x later y → KeepsClosed x.history y.history) ∧
    ∀ v ∈ x.history, ∀ left, v.leftAt = some left → v.enteredAt ≤ left := by
  have hplay : playsTo servesOnce [.startInstance [] ""] (fun x => x.tokens.length == 1 &&
      (openVisits x.history).map (·.nodeID) == ["a"] && x.history.any (fun v => v.leftAt.isSome)) = true := by decide
  obtain ⟨x, hrun, hP⟩ := run_of_playsTo hplay
  simp only [Bool.and_eq_true, beq_iff_eq, List.any_eq_true] at hP
  obtain ⟨⟨hone, hopen⟩, v, hv, hleft⟩ := hP
  have hord : Ordered (callsFrom 1 [.startInstance [] ""]) := List.pairwise_singleton _ _
  obtain ⟨hmirrors, hkept, htimes⟩ := history_mirrors_tokens hrun
  exact ⟨x, _, hrun, hmirrors, hone, hopen, ⟨v, hv, Option.isSome_iff_ne_none.mp hleft⟩, hkept, htimes hord⟩

/-- A service task that leads nowhere. -/
def leadsNowhere : ProcessDefinition where
  id := "nowhere"
  version := 1
  nodes := [startNode "s", serviceNode "a" ""]
  flows := [flowOf "f1" "s" "a"]

/-- The service task is done: its token stays on it and no visit is open. -/
theorem stranded_token_unmirrored : ∃ x calls, Run leadsNowhere none "i" calls x ∧ x.status = .running ∧
    ∃ t ∈ x.tokens, t.nodeID = "a" ∧ ∀ v ∈ x.history, v.leftAt ≠ none := by
  have hplay : playsTo leadsNowhere [.startInstance [] "", .actionCompleted "i-c1" []] (fun x => x.status == .running &&
      x.tokens.any (fun t => t.nodeID == "a") && x.history.all (fun v => v.leftAt.isSome)) = true := by decide
  obtain ⟨x, hrun, hP⟩ := run_of_playsTo hplay
  simp only [Bool.and_eq_true, beq_iff_eq, List.any_eq_true, List.all_eq_true] at hP
  obtain ⟨⟨hlive, t, ht, hnode⟩, hleft⟩ := hP
  exact ⟨x, _, hrun, hlive, t, ht, hnode, fun v hv => Option.isSome_iff_ne_none.mp (hleft v hv)⟩

end Wrkflw
