import Wrkflw.Machine.Move

/-!
# What each operation leaves alone

* `ControlState.outline` : the state without its compensation records and without the archive window of the
  cursor. Archiving, harvesting, consolidating, dropping and clearing records keep it (`…_outline`);
* `Scope.bare` : `defForScope` and `descendantScopeIDs` only read the bare scopes;
* `…_shape` : an operation as one update of the fields it changes;
* `cancelListed_eq_cancelAllTokens` : cancelling the tokens one by one and all at once is the same.
-/

namespace Wrkflw

variable {cur : CompensationCursor}

/-! ## Bare scopes -/

/-- The scope without its records. -/
def Scope.bare (sc : Scope) : Scope := { sc with compensations := [] }

section Bare
variable (scopes : List Scope)

theorem scopeByID_bare (id : String) : scopeByID (scopes.map Scope.bare) id = (scopeByID scopes id).map Scope.bare := by
  unfold scopeByID
  rw [List.find?_map]
  rfl

theorem defForScopeAux_bare (top : ProcessDefinition) (fuel : Nat) (id : String) :
    defForScopeAux top (scopes.map Scope.bare) fuel id = defForScopeAux top scopes fuel id := by
  induction fuel generalizing id with
  | zero => rfl
  | succ n ih =>
    unfold defForScopeAux
    rw [scopeByID_bare]
    cases scopeByID scopes id with
    | none => rfl
    | some sc =>
      simp only [Option.map_some, ih]
      rfl

theorem defForScope_bare (top : ProcessDefinition) (id : String) :
    defForScope top (scopes.map Scope.bare) id = defForScope top scopes id := by
  unfold defForScope
  rw [defForScopeAux_bare, List.length_map]

theorem descendantScopeIDs_bare (id : String) :
    descendantScopeIDs (scopes.map Scope.bare) id = descendantScopeIDs scopes id := by
  unfold descendantScopeIDs
  rw [List.foldl_map]
  rfl

theorem mem_bare {scopes scopes' : List Scope} (h : scopes'.map Scope.bare = scopes.map Scope.bare) {sc : Scope}
    (hsc : sc ∈ scopes') : ∃ sc0 ∈ scopes, sc0.id = sc.id ∧ sc0.nodeID = sc.nodeID ∧ sc0.parentID = sc.parentID := by
  have hmem : sc.bare ∈ scopes.map Scope.bare := h ▸ List.mem_map_of_mem hsc
  obtain ⟨sc0, h0, he⟩ := List.mem_map.mp hmem
  exact ⟨sc0, h0, (congrArg Scope.id he :), (congrArg Scope.nodeID he :), (congrArg Scope.parentID he :)⟩

theorem updateFirst_bare (p : Scope → Bool) (f : Scope → Scope) (hf : ∀ sc, (f sc).bare = sc.bare) :
    (updateFirst p f scopes).map Scope.bare = scopes.map Scope.bare := by
  induction scopes with
  | nil => rfl
  | cons sc l ih =>
    unfold updateFirst
    split
    · simp only [List.map_cons, hf]
    · simp only [List.map_cons, ih]

end Bare

/-! ## The outline -/

/-- The cursor without its archive window. -/
def CompensationCursor.bare (c : CompensationCursor) : CompensationCursor :=
  { c with teardownArchiveKey := "", teardownArchiveOffset := 0, teardownArchiveCount := 0 }

namespace ControlState

/-- The state without its records. -/
def outline (s : ControlState) : ControlState :=
  { s with
    scopes := s.scopes.map Scope.bare
    rootCompensations := []
    archivedCompensations := []
    compensating := s.compensating.bare }

variable (s : ControlState)

/-- Two states with the same outline agree on everything but the records and the archive window. -/
structure SameOutline (s s' : ControlState) : Prop where
  instanceID : s'.instanceID = s.instanceID
  status : s'.status = s.status
  tokens : s'.tokens = s.tokens
  history : s'.history = s.history
  scopes : s'.scopes.map Scope.bare = s.scopes.map Scope.bare
  compensating : s'.compensating.bare = s.compensating.bare
  pendingCancel : s'.pendingCancel = s.pendingCancel
  pendingFinalStatus : s'.pendingFinalStatus = s.pendingFinalStatus
  pendingFinalErr : s'.pendingFinalErr = s.pendingFinalErr
  queue : s'.deferredCompensationThrows = s.deferredCompensationThrows
  cmdSeq : s'.cmdSeq = s.cmdSeq
  tokenSeq : s'.tokenSeq = s.tokenSeq
  scopeSeq : s'.scopeSeq = s.scopeSeq
  trace : s'.trace = s.trace

theorem sameOutline {s s' : ControlState} (h : s'.outline = s.outline) : SameOutline s s' where
  instanceID := (congrArg ControlState.instanceID h :)
  status := (congrArg ControlState.status h :)
  tokens := (congrArg ControlState.tokens h :)
  history := (congrArg ControlState.history h :)
  scopes := (congrArg ControlState.scopes h :)
  compensating := (congrArg ControlState.compensating h :)
  pendingCancel := (congrArg ControlState.pendingCancel h :)
  pendingFinalStatus := (congrArg ControlState.pendingFinalStatus h :)
  pendingFinalErr := (congrArg ControlState.pendingFinalErr h :)
  queue := (congrArg ControlState.deferredCompensationThrows h :)
  cmdSeq := (congrArg ControlState.cmdSeq h :)
  tokenSeq := (congrArg ControlState.tokenSeq h :)
  scopeSeq := (congrArg ControlState.scopeSeq h :)
  trace := (congrArg ControlState.trace h :)

/-! ## Operations that keep the outline -/

@[simp] theorem setCompensations_outline (id : String) (f : List CompensationRecord → List CompensationRecord) :
    (s.setCompensations id f).outline = s.outline := by
  unfold outline setCompensations
  dsimp only
  rw [updateFirst_bare]
  exact fun _ => rfl

@[simp] theorem cursorWithWindow_bare (scope : Scope) (n : Option Nat) :
    (s.cursorWithWindow scope n).bare = s.compensating.bare := by
  cases n <;> rfl

@[simp] theorem archiveCompensations_outline (id : String) : (s.archiveCompensations id).outline = s.outline := by
  unfold archiveCompensations
  split
  · rfl
  · split
    · rfl
    · rename_i scope _ _
      rw [← s.setCompensations_outline id (fun _ => [])]
      unfold outline
      dsimp only
      rw [cursorWithWindow_bare]
      rfl

@[simp] theorem archiveAll_outline (ids : List String) : (s.archiveAll ids).outline = s.outline := by
  induction ids generalizing s with
  | nil => rfl
  | cons id ids ih => exact (ih (s.archiveCompensations id)).trans (s.archiveCompensations_outline id)

@[simp] theorem harvest_outline : s.harvestOpenScopeCompensations.outline = s.outline := s.archiveAll_outline _

@[simp] theorem consolidate_outline : s.consolidateArchiveIntoRoot.outline = s.outline := by
  unfold consolidateArchiveIntoRoot
  split <;> rfl

@[simp] theorem dropArchiveRecordAt_outline (key : String) (i : Int) :
    (s.dropArchiveRecordAt key i).outline = s.outline := rfl

@[simp] theorem consumeDispatchedRecord_outline (i : Int) : (s.consumeDispatchedRecord i).outline = s.outline := by
  unfold consumeDispatchedRecord
  dsimp only
  split
  · rfl
  · split
    · rfl
    · split <;> rfl

@[simp] theorem mapRecords_outline (id : String) (f : List CompensationRecord → List CompensationRecord) :
    (s.mapRecords id f).outline = s.outline := by
  unfold mapRecords
  split
  · rfl
  · exact s.setCompensations_outline id f

/-! ## Tokens and visits -/

end ControlState

theorem updateFirst_length {α : Type} (p : α → Bool) (f : α → α) (l : List α) :
    (updateFirst p f l).length = l.length := by
  induction l with
  | nil => rfl
  | cons a l ih =>
    unfold updateFirst
    split
    · rfl
    · simp only [List.length_cons, ih]

namespace ControlState
variable (s : ControlState)

/-- The visits after an operation on them: as many as before. -/
def Visits (h : List NodeVisit) : Prop := h.length = s.history.length

theorem updateOpenVisit_shape (tokenID nodeID : String) (f : NodeVisit → NodeVisit) :
    ∃ h, s.Visits h ∧ s.updateOpenVisit tokenID nodeID f = { s with history := h } := by
  unfold updateOpenVisit
  split
  · exact ⟨s.history, rfl, rfl⟩
  · refine ⟨_, ?_, rfl⟩
    unfold Visits
    rw [List.length_reverse, updateFirst_length, List.length_reverse]

theorem Visits.nonempty {s : ControlState} {h : List NodeVisit} (hv : s.Visits h) : s.history ≠ [] → h ≠ [] := by
  intro hne he
  rw [he] at hv
  exact hne (List.length_eq_zero_iff.mp hv.symm)

theorem removeToken_of_ne {id : String} (hid : id ≠ "") :
    s.removeToken id = { s with tokens := s.tokens.filter (fun t => t.id != id) } := by
  unfold removeToken
  rw [if_neg (by simpa using hid)]

theorem removeToken_shape (id : String) :
    ∃ p : Token → Bool, s.removeToken id = { s with tokens := s.tokens.filter p } ∧ ∀ t, t.id ≠ id → p t = true := by
  unfold removeToken
  split
  · exact ⟨fun _ => true, by rw [List.filter_true], fun _ _ => rfl⟩
  · exact ⟨fun t => t.id != id, rfl, fun t h => by simpa using h⟩

theorem consumeTokenAs_shape (tok : Token) (at_ : Time) (kind : CloseKind) :
    ∃ h, s.Visits h ∧ s.consumeTokenAs tok at_ kind = { s.removeToken tok.id with history := h } := by
  obtain ⟨h, hv, he⟩ := s.updateOpenVisit_shape tok.id tok.nodeID
    (fun v => { v with leftAt := some at_, closeKind := kind })
  refine ⟨h, hv, ?_⟩
  unfold consumeTokenAs closeVisitAs
  rw [he]
  unfold removeToken
  split <;> rfl

theorem tokenByID_some {id : String} {t : Token} (h : s.tokenByID id = some t) :
    t ∈ s.tokens ∧ t.id = id ∧ id ≠ "" := by
  unfold tokenByID at h
  split at h
  · exact absurd h (by simp)
  · rename_i hne
    refine ⟨List.mem_of_find?_eq_some h, ?_, by simpa using hne⟩
    simpa using List.find?_some h

/-- A cancelled token's visit is closed, the token goes and the cancellation is noted. -/
theorem cancelToken_shape (tok : Token) (at_ : Time) (kind : CloseKind) :
    s.cancelToken tok at_ kind = s ∨ ∃ t ∈ s.tokens, t.id = tok.id ∧ t.id ≠ "" ∧ ∃ h, s.Visits h ∧
      s.cancelToken tok at_ kind =
        { s with
          history := h
          tokens := s.tokens.filter (fun t => t.id != tok.id)
          trace := .cancelled t s.deferredCompensationThrows s.walking :: s.trace } := by
  unfold cancelToken
  cases hfind : s.tokenByID tok.id with
  | none => exact Or.inl rfl
  | some t =>
    obtain ⟨hmem, hid, hne⟩ := s.tokenByID_some hfind
    obtain ⟨h, hv, he⟩ := s.consumeTokenAs_shape t at_ kind
    refine Or.inr ⟨t, hmem, hid, hid ▸ hne, h, hv, ?_⟩
    dsimp only
    rw [he, hid, s.removeToken_of_ne hne]
    rfl

theorem updateToken_updateToken (id : String) (f f' : Token → Token) (hf : ∀ t, (f t).id = t.id) :
    (s.updateToken id f).updateToken id f' = s.updateToken id (fun t => f' (f t)) := by
  unfold updateToken
  dsimp only
  rw [List.map_map]
  congr 2
  funext t
  simp only [Function.comp_apply]
  by_cases h : (t.id == id) = true
  · simp only [h, if_true, hf]
  · simp only [h, if_false, Bool.false_eq_true]

theorem closeScope_shape (id : String) :
    ∃ p : Scope → Bool, s.closeScope id = { s with scopes := s.scopes.filter p } := by
  unfold closeScope
  split
  · exact ⟨fun _ => true, by rw [List.filter_true]⟩
  · exact ⟨_, rfl⟩

end ControlState

theorem joinedAt_iff {t : Token} {node scope : String} :
    joinedAt t node scope = true ↔ t.nodeID = node ∧ t.state = .joining ∧ t.scopeID = scope := by
  unfold joinedAt
  rw [Bool.and_eq_true, Bool.and_eq_true, beq_iff_eq, beq_iff_eq, beq_iff_eq, and_assoc]

/-! ## Finishing a walk -/

open ControlState

@[simp] theorem applyDeleteArchive_outline (plan : FinishPlan) (s : ControlState) :
    (applyDeleteArchive plan s).outline = s.outline := by
  unfold applyDeleteArchive
  split <;> rfl

theorem dropArchiveWindow_outline (key : String) (offset : Int) (n : Nat) (s : ControlState) :
    (dropArchiveWindow key offset n s).outline = s.outline := by
  induction n generalizing s with
  | zero => rfl
  | succ n ih => exact (ih _).trans (s.dropArchiveRecordAt_outline _ _)

@[simp] theorem applyPlanRecordClearing_outline (plan : FinishPlan) (s : ControlState) :
    (applyPlanRecordClearing plan s).outline = s.outline := by
  unfold applyPlanRecordClearing
  split
  · rfl
  · split
    · dsimp only
      split
      · exact s.mapRecords_outline _ _
      · exact (dropArchiveWindow_outline _ _ _ _).trans (s.mapRecords_outline _ _)
    · exact s.mapRecords_outline _ _

/-! The cursor is not touched when records are cleared. -/

@[simp] theorem mapRecords_compensating (s : ControlState) (id : String)
    (f : List CompensationRecord → List CompensationRecord) : (s.mapRecords id f).compensating = s.compensating := by
  unfold mapRecords
  split <;> rfl

@[simp] theorem applyDeleteArchive_compensating (plan : FinishPlan) (s : ControlState) :
    (applyDeleteArchive plan s).compensating = s.compensating := by
  unfold applyDeleteArchive
  split <;> rfl

theorem dropArchiveWindow_compensating (key : String) (offset : Int) (n : Nat) (s : ControlState) :
    (dropArchiveWindow key offset n s).compensating = s.compensating := by
  induction n generalizing s with
  | zero => rfl
  | succ n ih => exact ih _

@[simp] theorem applyPlanRecordClearing_compensating (plan : FinishPlan) (s : ControlState) :
    (applyPlanRecordClearing plan s).compensating = s.compensating := by
  unfold applyPlanRecordClearing
  split
  · rfl
  · split
    · dsimp only
      split
      · exact mapRecords_compensating s _ _
      · exact (dropArchiveWindow_compensating _ _ _ _).trans (mapRecords_compensating s _ _)
    · exact mapRecords_compensating s _ _

/-! ## Dispatching a record -/

/-- A dispatch without the record it takes off the archive. -/
def ControlState.announce (s : ControlState) (cur : CompensationCursor) (rec : CompensationRecord) (cmdID : String) :
    ControlState :=
  ({ s with compensating := cur }.recordCompensationDispatch cmdID).note (.dispatched rec cmdID)

@[simp] theorem dispatch_outline (s : ControlState) (cur : CompensationCursor) (idx : Int) (rec : CompensationRecord)
    (cmdID : String) : (s.dispatch cur idx rec cmdID).outline = (s.announce cur rec cmdID).outline := by
  have h := consumeDispatchedRecord_outline { s with compensating := cur } idx
  exact congrArg (fun o : ControlState => (o.recordCompensationDispatch cmdID).note (.dispatched rec cmdID)) h

@[simp] theorem dispatch_rootCompensations (s : ControlState) (cur : CompensationCursor) (idx : Int)
    (rec : CompensationRecord) (cmdID : String) :
    (s.dispatch cur idx rec cmdID).rootCompensations = s.rootCompensations := by
  change ({ s with compensating := cur }.consumeDispatchedRecord idx).rootCompensations = s.rootCompensations
  unfold consumeDispatchedRecord
  dsimp only
  split
  · rfl
  · split
    · rfl
    · split <;> rfl

/-! ## The plan of a finished walk -/

theorem walkMode_eq_admin :
    cur.walkMode = .admin ↔ cur.resumeNode = "" ∧ cur.toNode = "" ∧ cur.reverseNode = "" := by
  unfold CompensationCursor.walkMode
  by_cases h1 : cur.resumeNode = "" <;> by_cases h2 : cur.toNode = "" <;> by_cases h3 : cur.reverseNode = "" <;>
    by_cases h4 : cur.archiveKey = "" <;> simp [h1, h2, h3, h4]

theorem walkMode_throw (h : cur.resumeNode ≠ "") :
    cur.walkMode = .throwTargeted ∨ cur.walkMode = .throwScopeWide := by
  unfold CompensationCursor.walkMode
  by_cases h4 : cur.archiveKey = "" <;> simp [h, h4]

theorem finishPlan_admin (s : ControlState) (h : cur.walkMode = .admin) :
    (finishPlan s cur).resume = false := by
  unfold finishPlan
  rw [h]

theorem finishPlan_throw (s : ControlState) (h : cur.resumeNode ≠ "") :
    (finishPlan s cur).consumePendingCancel = true := by
  unfold finishPlan
  rcases walkMode_throw h with hm | hm <;> rw [hm]

theorem pendingOutcome_aborts {s : ControlState} (h : s.pendingFinalStatus.Aborts) :
    (pendingOutcome s).finalStatus = .terminated ∨ (pendingOutcome s).finalStatus = .failed := by
  unfold pendingOutcome
  rcases h with h | h | h <;> simp [h]

theorem finalStatusOf_aborts {st : Status} (h : st.Aborts) :
    finalStatusOf st = .terminated ∨ finalStatusOf st = .failed := by
  unfold finalStatusOf
  rcases h with rfl | rfl | rfl <;> simp

end Wrkflw
