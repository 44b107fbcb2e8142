import Wrkflw.Property.Completion
import Wrkflw.Machine.Recorded

/-!
# Compensation records of completed activities

A completed activity is recorded where its visit ends with the answer of an action or with the normal end of an embedded
sub-process. The other ways a visit ends well (a human task or a message without a completion action, a child instance, a
send task, an immediate manual task, an event sub-process) record nothing, though a definition may give a send task, a
call activity, an immediate manual task or an event sub-process a compensation action. Nothing else records.

* `Records` : one record was appended, the completed activity's, to the list of the scope it ran in;
* `Completes.records_iff` : which completions are recorded.
-/

namespace Wrkflw

open ControlState

variable {inner : String} {x : InstanceState}

/-- One record was appended, and it is the activity's, in the list of the scope. -/
def Records (c : StepCtx) (s y : InstanceState) (node : Node) (scope : String) : Prop :=
  ∃ rec : CompensationRecord, rec.nodeID = node.id ∧ rec.action = node.compensateActionOf ∧ rec.completedAt = c.at_ ∧
    y.recorded = rec :: s.recorded ∧ y.compensationRecordsForScope scope = s.compensationRecordsForScope scope ++ [rec]

/-! ## The lists of the scopes -/

/-- The scope has a list of records. -/
def Listed (scopes : List Scope) (scope : String) : Prop := scope = "" ∨ (scopeByID scopes scope).isSome = true

theorem listed_of_def {top d : ProcessDefinition} {scopes : List Scope} {scope : String}
    (h : defForScope top scopes scope = .ok d) : Listed scopes scope := by
  unfold defForScope defForScopeAux at h
  split at h
  · rename_i hroot
    exact .inl (by simpa using hroot)
  · split at h
    · cases h
    · rename_i sc hsc
      exact .inr (by rw [hsc]; rfl)

/-- The scope whose list is rewritten is the one that is found. -/
theorem scopeByID_setCompensations (s : ControlState) (id scope : String)
    (f : List CompensationRecord → List CompensationRecord) :
    scopeByID (s.setCompensations id f).scopes scope =
      if scope = id then (scopeByID s.scopes scope).map (fun sc => { sc with compensations := f sc.compensations })
      else scopeByID s.scopes scope := by
  unfold setCompensations scopeByID
  dsimp only
  induction s.scopes with
  | nil =>
    unfold updateFirst
    split <;> rfl
  | cons sc scopes ih =>
    unfold updateFirst
    by_cases hid : sc.id = id
    · by_cases hs : scope = id
      · subst hs
        simp [hid]
      · simp [hid, hs, show ¬ id = scope from fun h => hs h.symm]
    · by_cases hs : sc.id = scope
      · have hne : ¬ scope = id := fun h => hid (hs.trans h)
        simp [hs, hne]
      · rw [if_neg (by simpa using hid), List.find?_cons_of_neg (by simpa using hs),
          List.find?_cons_of_neg (by simpa using hs)]
        exact ih

theorem scopeByID_filter (scopes : List Scope) (p : String → Bool) (scope : String) :
    scopeByID (scopes.filter (fun sc => p sc.id)) scope = if p scope = true then scopeByID scopes scope else none := by
  unfold scopeByID
  induction scopes with
  | nil =>
    split <;> rfl
  | cons sc scopes ih =>
    rw [List.filter_cons]
    by_cases hs : sc.id = scope
    · subst hs
      cases hp : p sc.id with
      | true => simp
      | false =>
        rw [hp] at ih
        exact ih
    · rw [List.find?_cons_of_neg (by simpa using hs)]
      split
      · rw [List.find?_cons_of_neg (by simpa using hs)]
        exact ih
      · exact ih

/-- A record goes to the end of the list of its scope, and is the one that is recorded. -/
theorem recordCompensation_appends (s : ControlState) {scope : String} (hlisted : Listed s.scopes scope)
    (rec : CompensationRecord) : (s.recordCompensation scope rec).recorded = rec :: s.recorded ∧
      (s.recordCompensation scope rec).compensationRecordsForScope scope = s.compensationRecordsForScope scope ++ [rec] := by
  unfold recordCompensation compensationRecordsForScope
  by_cases hroot : scope = ""
  · simp [hroot, ControlState.note, ControlState.recorded, Event.record?]
  · have hopen := hlisted.resolve_left hroot
    obtain ⟨sc, hsc⟩ := Option.isSome_iff_exists.mp hopen
    have hset : scopeByID (s.setCompensations scope (· ++ [rec])).scopes scope =
        some { sc with compensations := sc.compensations ++ [rec] } := by
      rw [scopeByID_setCompensations, if_pos rfl, hsc]
      rfl
    rw [if_neg (by simpa using hroot), if_neg (by simpa using hroot), if_neg (by simpa using hroot), hsc]
    refine ⟨rfl, ?_⟩
    rw [show scopeByID ((s.setCompensations scope (· ++ [rec])).note (.recorded rec)).scopes scope = _ from hset]

theorem archive_scopeByID (s : ControlState) (inner scope : String) :
    scopeByID (s.archiveCompensations inner).scopes scope =
      if scope = inner then (scopeByID s.scopes scope).map (fun sc => { sc with compensations := [] })
      else scopeByID s.scopes scope := by
  unfold archiveCompensations
  split
  · rename_i hnone
    split
    · rename_i he
      rw [he, hnone]
      rfl
    · rfl
  · rename_i sc hsc
    split
    · rename_i hempty
      split
      · rename_i he
        rw [he, hsc]
        have hcomp : sc.compensations = [] := List.isEmpty_iff.mp hempty
        rw [Option.map_some, ← hcomp]
      · rfl
    · exact scopeByID_setCompensations s inner scope (fun _ => [])

theorem archive_root (s : ControlState) (inner : String) :
    (s.archiveCompensations inner).rootCompensations = s.rootCompensations := by
  unfold archiveCompensations
  split
  · rfl
  · split <;> rfl

theorem closeScope_root (s : ControlState) (inner : String) :
    (s.closeScope inner).rootCompensations = s.rootCompensations := by
  unfold closeScope
  split <;> rfl

theorem closeScope_scopeByID (s : ControlState) {scope : String}
    (hopen : (scopeByID (s.closeScope inner).scopes scope).isSome = true) :
    scopeByID (s.closeScope inner).scopes scope = scopeByID s.scopes scope ∧
      ((scopeByID s.scopes inner).isSome = true → scope ≠ inner) := by
  unfold closeScope at hopen ⊢
  split at hopen
  · rename_i hnone
    rw [if_pos hnone]
    refine ⟨rfl, fun hsome => ?_⟩
    rw [Option.isNone_iff_eq_none.mp hnone] at hsome
    cases hsome
  · rename_i hsome
    rw [if_neg hsome]
    have hfilter := scopeByID_filter s.scopes (fun id => !(descendantScopeIDs s.scopes inner).contains id) scope
    dsimp only at hopen ⊢
    rw [hfilter] at hopen ⊢
    split at hopen
    · rename_i hkept
      rw [if_pos hkept]
      refine ⟨rfl, fun _ he => ?_⟩
      rw [he] at hkept
      simp [mem_descendants_self] at hkept
    · cases hopen

/-- A scope that ends leaves the lists of the others as they are. -/
theorem exitScope_lists (s : ControlState) (inner : String) (enclosing : Bool) {scope : String}
    (hlisted : Listed (s.exitScope inner enclosing).scopes scope) :
    (s.exitScope inner enclosing).compensationRecordsForScope scope = s.compensationRecordsForScope scope := by
  unfold compensationRecordsForScope
  by_cases hroot : scope = ""
  · rw [if_pos (by simpa using hroot), if_pos (by simpa using hroot)]
    unfold exitScope
    rw [closeScope_root, archive_root]
    rfl
  · rw [if_neg (by simpa using hroot), if_neg (by simpa using hroot)]
    obtain ⟨hsame, hspares⟩ := closeScope_scopeByID _ (hlisted.resolve_left hroot)
    have hscopes : scopeByID (s.exitScope inner enclosing).scopes scope = scopeByID s.scopes scope := by
      refine hsame.trans ((archive_scopeByID _ inner scope).trans ?_)
      split
      · rename_i he
        have hgone : scopeByID s.scopes scope = none := by
          cases hsc : scopeByID s.scopes scope with
          | none => rfl
          | some sc =>
            refine absurd he (hspares ?_)
            rw [archive_scopeByID, if_pos rfl, ← he]
            change ((scopeByID s.scopes scope).map _).isSome = true
            rw [hsc]
            rfl
        change (scopeByID s.scopes scope).map _ = scopeByID s.scopes scope
        rw [hgone]
        rfl
      · rfl
    rw [hscopes]

/-! ## Completions -/

section
variable {c : StepCtx} {s y : InstanceState} {tdef : ProcessDefinition} {node : Node} {tok : Token} {scope : String}

theorem moveAlong_lists (x : InstanceState) (scope : String) :
    (moveAlongSingleFlow c.ids tdef x tok c.at_).compensationRecordsForScope scope = x.compensationRecordsForScope scope := by
  have hclosed : (x.onControl (·.closeVisit tok.id tok.nodeID c.at_)).compensationRecordsForScope scope =
      x.compensationRecordsForScope scope := by
    dsimp only [InstanceState.onControl, closeVisit, closeVisitAs, updateOpenVisit]
    split <;> rfl
  unfold moveAlongSingleFlow
  dsimp only
  split
  · exact hclosed
  · exact hclosed

/-- An answer that only lets the token go on records nothing. -/
theorem GoesOn.recorded (h : GoesOn c s tdef tok y) : y.recorded = s.recorded := by
  obtain ⟨x, hx, rfl⟩ := h
  rw [recorded_moveAlong, hx]
  rfl

theorem not_records (h : y.recorded = s.recorded) : ¬ Records c s y node scope := by
  rintro ⟨rec, -, -, -, hrec, -⟩
  rw [h] at hrec
  exact absurd (congrArg List.length hrec) (by simp)

/-- The activity's record is made on the state, and nothing else is recorded behind it. -/
theorem records_of {z : InstanceState} (rec : CompensationRecord) (hid : rec.nodeID = node.id)
    (haction : rec.action = node.compensateActionOf) (hat : rec.completedAt = c.at_) (hlisted : Listed x.scopes scope)
    (hrecorded : x.recorded = s.recorded)
    (hlists : x.compensationRecordsForScope scope = s.compensationRecordsForScope scope)
    (hz : z.toControlState = x.toControlState.recordCompensation scope rec) (hy : y.recorded = z.recorded)
    (hylists : y.compensationRecordsForScope scope = z.compensationRecordsForScope scope) : Records c s y node scope := by
  obtain ⟨happ, hlist⟩ := recordCompensation_appends x.toControlState hlisted rec
  refine ⟨rec, hid, haction, hat, ?_, ?_⟩
  · rw [hy, hz, happ, hrecorded]
  · rw [hylists, hz, hlist, hlists]

theorem actionDone_records {output : Vars} (hdef : defForScope c.top s.scopes tok.scopeID = .ok tdef)
    (hnode : tdef.node tok.nodeID = some node) (hcomp : node.compensateActionOf ≠ "") :
    Records c s (moveAlongSingleFlow c.ids tdef (actionDone c s tdef tok output) tok c.at_) node tok.scopeID := by
  have harms : (s.removeBoundaryArmsForHost tok.id).state.toControlState = s.toControlState :=
    s.removeBoundaryArmsForHost_control tok.id
  refine records_of (x := (s.removeBoundaryArmsForHost tok.id).state)
    (z := recordCompletion c (s.removeBoundaryArmsForHost tok.id).state tdef tok)
    ⟨node.id, node.compensateActionOf, c.at_, (s.removeBoundaryArmsForHost tok.id).state.vars⟩ rfl rfl rfl ?_ ?_ ?_ ?_
    (recorded_moveAlong _ _ _ _ _) (moveAlong_lists _ _)
  · rw [harms]
    exact listed_of_def hdef
  · rw [harms]
  · rw [harms]
  · unfold recordCompletion
    rw [hnode]
    dsimp only
    rw [if_neg (by simpa using hcomp)]
    rfl

/-- The end of a sub-process in whose parent the token goes on. -/
theorem resumed_records {enclosing : Bool} (hkind : node.kind = .subProcess)
    (hx : x.toControlState = s.toControlState.exitScope inner enclosing)
    (hdef : defForScope c.top (s.toControlState.exitScope inner enclosing).scopes scope = .ok tdef)
    (hnode : tdef.node node.id = some node) (hcomp : node.compensateActionOf ≠ "")
    (h : resumeInParentScope c tdef (recordSubProcessCompensation c tdef x node.id scope) node.id scope = some y) :
    Records c s y node scope := by
  have hlisted := listed_of_def hdef
  unfold resumeInParentScope at h
  split at h
  · cases h
  · cases h
    refine records_of (x := x) (z := recordSubProcessCompensation c tdef x node.id scope)
      ⟨node.id, node.compensateActionOf, c.at_, x.vars⟩ rfl rfl rfl ?_ ?_ ?_ ?_ rfl rfl
    · rw [hx]
      exact hlisted
    · rw [hx, recorded_exitScope]
    · rw [hx]
      exact exitScope_lists _ _ _ hlisted
    · unfold recordSubProcessCompensation
      rw [hnode]
      dsimp only
      obtain ⟨id, name, spec⟩ := node
      cases spec with
      | subProcess a sub =>
        have hne : ¬ (a.compensateAction == "") = true := by
          rw [beq_iff_eq]
          exact hcomp
        dsimp only
        rw [if_neg hne]
        rfl
      | _ => cases hkind

/-- **Which completions are recorded**: those of an action and of an embedded sub-process. -/
theorem Completes.records_iff {site : CompletionSite} (h : Completes c s tdef node scope site y)
    (hcomp : node.compensateActionOf ≠ "") : Records c s y node scope ↔ site = .action ∨ site = .subProcess := by
  cases h with
  | @answered site body tok y cmds hans hscope hdef hnode hy =>
    subst hscope
    cases site with
    | action =>
      refine iff_of_true ?_ (.inl rfl)
      cases body with
      | actionCompleted id output =>
        rw [actionCompleted_hands hans hdef hy]
        exact actionDone_records hdef hnode hcomp
      | _ => cases hans
    | human =>
      refine iff_of_false (not_records ?_) (by simp)
      cases body with
      | humanCompleted id outcome note output actor => exact (humanCompleted_hands hans hdef hy).recorded
      | _ => cases hans
    | message =>
      refine iff_of_false (not_records ?_) (by simp)
      cases body with
      | messageReceived name key payload => exact (messageReceived_hands hans hdef hy).recorded
      | _ => cases hans
    | child =>
      refine iff_of_false (not_records ?_) (by simp)
      cases body with
      | subInstanceCompleted id output => exact (childCompleted_hands hans hdef hy).recorded
      | _ => cases hans
    | passing => cases body <;> cases hans
    | subProcess => cases body <;> cases hans
    | eventSubProcess => cases body <;> cases hans
  | passed hpass hscope hdef hnode h =>
    exact iff_of_false (not_records (passed_goesOn hpass h).recorded) (by simp)
  | left hkind hdef hnode h hdone =>
    obtain ⟨x, hx, hresume⟩ := left_eq hdef h hdone
    exact iff_of_true (resumed_records hkind hx hdef hnode hcomp hresume) (.inr rfl)
  | leftBy hkind henc hid hparent hdef hnode h hdone hout =>
    obtain ⟨x, y, hx, hy, hresume⟩ := leftBy_eq henc hid hparent hdef h hdone hout
    obtain ⟨rec, h1, h2, h3, h4, h5⟩ := resumed_records hkind hx hdef hnode hcomp hresume
    refine iff_of_true ⟨rec, h1, h2, h3, ?_, ?_⟩ (.inr rfl)
    · rw [hy]
      exact h4
    · rw [hy]
      exact h5
  | ended hevent h hdone => exact iff_of_false (not_records (recorded_exitScope _ _ _)) (by simp)

/-! ## Nothing else records -/

theorem recordSubProcess_one (tdef : ProcessDefinition) (x : InstanceState) (nodeID scope : String) :
    (recordSubProcessCompensation c tdef x nodeID scope).recorded = x.recorded ∨
      ∃ rec, (recordSubProcessCompensation c tdef x nodeID scope).recorded = rec :: x.recorded := by
  unfold recordSubProcessCompensation
  split
  · split
    · split
      · exact .inl rfl
      · dsimp only [InstanceState.onControl]
        unfold recordCompensation
        split
        · exact .inr ⟨_, rfl⟩
        · split
          · exact .inl rfl
          · exact .inr ⟨_, rfl⟩
    · exact .inl rfl
  · exact .inl rfl

theorem resumeInParent_recorded {nodeID : String} (h : resumeInParentScope c tdef x nodeID scope = some y) :
    y.recorded = x.recorded := by
  unfold resumeInParentScope at h
  split at h
  · cases h
  · cases h
    rfl

theorem exitNested_one {parent : String} {r : EnterResult}
    (h : exitNestedEventSubprocessScope c x inner parent = .ok r) :
    r.state.recorded = x.recorded ∨ ∃ rec, r.state.recorded = rec :: x.recorded := by
  unfold exitNestedEventSubprocessScope at h
  split at h
  · cases h
    exact .inl rfl
  · rename_i enclosing _
    split at h
    · cases h
      exact .inl rfl
    · split at h
      · cases h
        exact .inl rfl
      · have hexit : (x.onControl (·.exitScope parent true)).recorded = x.recorded := x.toControlState.recorded_exitScope _ _
        dsimp only at h
        split at h
        · cases h
        · rename_i grandparentDef _
          have hone := recordSubProcess_one (c := c) grandparentDef (x.onControl (·.exitScope parent true)) enclosing.nodeID
            enclosing.parentID
          rw [hexit] at hone
          split at h
          · rename_i s3 hresume
            cases h
            change s3.recorded = x.recorded ∨ ∃ rec, s3.recorded = rec :: x.recorded
            rw [resumeInParent_recorded hresume]
            exact hone
          · split at h
            · cases h
            · split at h
              · cases h
                dsimp only [EnterResult.parked]
                rw [InstanceState.complete_control, recorded_endControl]
                exact hone
              · cases h
                exact hone

/-- A normal end records at most the sub-process it ends. -/
theorem exitSubprocessScope_one {r : EnterResult}
    (h : exitSubprocessScope c x inner = .ok r) :
    r.state.recorded = x.recorded ∨ ∃ rec, r.state.recorded = rec :: x.recorded := by
  have hexit : (x.onControl (·.exitScope inner false)).recorded = x.recorded := x.toControlState.recorded_exitScope _ _
  unfold exitSubprocessScope at h
  split at h
  · cases h
    exact .inl rfl
  · split at h
    · cases h
      exact .inl rfl
    · split at h
      · cases h
      · split at h
        · unfold exitEventSubprocessScope at h
          split at h
          · cases h
            exact .inl rfl
          · dsimp only at h
            split at h
            · cases h
              refine .inl (Eq.trans ?_ hexit)
              unfold exitRootEventSubprocessScope
              split
              · rfl
              · split
                · rfl
                · exact recorded_exitRoot
            · rw [← hexit]
              exact exitNested_one h
        · unfold exitRegularSubprocessScope at h
          split at h
          · cases h
            exact .inl rfl
          · dsimp only at h
            split at h
            · cases h
            · split at h
              · cases h
              · rename_i parentDef _ _ s3 hresume
                cases h
                change s3.recorded = x.recorded ∨ ∃ rec, s3.recorded = rec :: x.recorded
                rw [resumeInParent_recorded hresume, ← hexit]
                exact recordSubProcess_one _ _ _ _

end

/-- **A completed activity is recorded if and only if its visit ends with an action or it is an embedded sub-process**;
and no other trigger, and no other node but the normal end of a sub-process, records anything before the loop goes on. -/
theorem completions_recorded_iff {drv : DriveLoop} (hdrv : RecordsNothing drv) {c : StepCtx}
    {s : InstanceState} :
    (∀ {tdef node scope site y}, Completes c s tdef node scope site y → node.compensateActionOf ≠ "" →
      (Records c s y node scope ↔ site = .action ∨ site = .subProcess)) ∧
    (∀ {body r}, (¬ ∃ tok, Succeeds s tok body .action) → handle drv c s body = .ok r → r.state.recorded = s.recorded) ∧
    (∀ {tdef tok node r}, enter drv c tdef s tok node = .ok r → r.state.recorded = s.recorded ∨
      (∃ ev, node.spec = .endEvent ev ∧ ev.behavior = .normal) ∧ tok.scopeID ≠ "" ∧
        ∃ rec, r.state.recorded = rec :: s.recorded) := by
  refine ⟨fun h hcomp => h.records_iff hcomp, fun hnone h => unrecorded_handle hdrv (fun id output hbody => ?_) _ h, ?_⟩
  · rintro ⟨tok, hans⟩
    subst hbody
    exact hnone ⟨tok, hans⟩
  · intro tdef tok node r h
    by_cases hin : ∀ ev, node.spec = .endEvent ev → ev.behavior = .normal → tok.scopeID = ""
    · exact .inl (recorded_enter hdrv hin h)
    · push Not at hin
      obtain ⟨ev, hspec, hnormal, hscope⟩ := hin
      unfold enter at h
      rw [hspec] at h
      dsimp only [endEvent] at h
      rw [hnormal] at h
      dsimp only at h
      rw [if_neg (by simpa using hscope)] at h
      have hone := exitSubprocessScope_one h
      rw [show (s.onControl (·.consumeToken tok c.at_)).recorded = s.recorded from
        s.toControlState.recorded_consumeToken _ _] at hone
      exact hone.imp (fun h => h) (fun hrec => ⟨⟨ev, hspec, hnormal⟩, hscope, hrec⟩)

theorem handsOver_records : RecordsNothing handsOver := fun _ => Unrecorded.ok rfl

/-- One activity between the start and the end. -/
def oneActivity (spec : NodeSpec ProcessDefinition) : ProcessDefinition := rowOf "one" [{ id := "a", spec := spec }]

/-- A service task with a compensation action. -/
def undoable : Node := { id := "a", spec := .serviceTask { compensateAction := "undo" } "" }

/-- The service task is recorded when its action completes. -/
theorem service_task_recorded : ∃ x y, Run (oneActivity undoable.spec) none "i" (callsFrom 1 [.startInstance [] ""]) x ∧
    Records (stepCtx (oneActivity undoable.spec) x ⟨2, .actionCompleted "i-c1" []⟩ plainOptions) x y undoable "" := by
  have hplay : playsThrough (oneActivity undoable.spec) [.startInstance [] ""] (.actionCompleted "i-c1" []) []
      (fun x _ _ => waitsAtActivity x) = true := by decide
  obtain ⟨x, -, -, hrun, -, -, hP⟩ := run_of_playsThrough hplay
  obtain ⟨hrunning, hdup, tok, htok, hnodeID, hscope⟩ := waits_of_waitsAtActivity hP
  have hans : Succeeds x tok (.actionCompleted "i-c1" []) .action :=
    ⟨htok, fun hw => (by cases hrunning.symm.trans hw.1), hdup⟩
  have hat : defForScope (oneActivity undoable.spec) x.scopes tok.scopeID = .ok (oneActivity undoable.spec) := by
    rw [hscope]
    rfl
  have hdone : Completes (stepCtx (oneActivity undoable.spec) x ⟨2, .actionCompleted "i-c1" []⟩ plainOptions) x
      (oneActivity undoable.spec) undoable "" .action _ :=
    .answered hans hscope rfl (by rw [hnodeID]; rfl) (actionCompleted_eq hans hat)
  exact ⟨x, _, hrun, ((completions_recorded_iff handsOver_records).1 hdone (by decide)).mpr (.inl rfl)⟩

/-- A call activity with a compensation action. -/
def undoableCall : Node := { id := "a", spec := .callActivity { compensateAction := "undo" } ⟨"child", 1⟩ }

/-- A call activity with a compensation action completes and nothing is recorded, in the whole step. -/
theorem call_activity_unrecorded : Accepted asciiTables (oneActivity undoableCall.spec) ∧
    ∃ x y r, Run (oneActivity undoableCall.spec) none "i" (callsFrom 1 [.startInstance [] ""]) x ∧
      step 50 (oneActivity undoableCall.spec) x ⟨2, .subInstanceCompleted "i-c1" []⟩ plainOptions = .ok r ∧
      Completes (stepCtx (oneActivity undoableCall.spec) x ⟨2, .subInstanceCompleted "i-c1" []⟩ plainOptions) x
        (oneActivity undoableCall.spec) undoableCall "" .child y ∧
      undoableCall.compensateActionOf = "undo" ∧ x.recorded = [] ∧ r.state.recorded = [] := by
  have hplay : playsThrough (oneActivity undoableCall.spec) [.startInstance [] ""] (.subInstanceCompleted "i-c1" []) []
      (fun x r _ => waitsAtActivity x && x.recorded.isEmpty && r.state.recorded.isEmpty) = true := by decide
  obtain ⟨x, r, -, hrun, hstep, -, hP⟩ := run_of_playsThrough hplay
  simp only [Bool.and_eq_true, List.isEmpty_iff] at hP
  obtain ⟨⟨hwaits, hempty⟩, hnone⟩ := hP
  obtain ⟨-, -, tok, htok, hnodeID, hscope⟩ := waits_of_waitsAtActivity hwaits
  have hat : defForScope (oneActivity undoableCall.spec) x.scopes tok.scopeID = .ok (oneActivity undoableCall.spec) := by
    rw [hscope]
    rfl
  have hans : Succeeds x tok (.subInstanceCompleted "i-c1" []) .child := htok
  have hdone : Completes (stepCtx (oneActivity undoableCall.spec) x ⟨2, .subInstanceCompleted "i-c1" []⟩ plainOptions) x
      (oneActivity undoableCall.spec) undoableCall "" .child _ :=
    .answered hans hscope rfl (by rw [hnodeID]; rfl) (childCompleted_eq htok hat)
  exact ⟨by decide, x, _, r, hrun, hstep, hdone, rfl, hempty, hnone⟩

end Wrkflw
