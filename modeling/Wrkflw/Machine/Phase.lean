import Wrkflw.Machine.Names

/-!
# Phases

An instance runs, walks or has ended, and what each phase allows is an invariant of the machine:

* `WalkOK` : the cursor stands on a record, of the copy a throw's walk works on or of the root's list;
* `Phase` : the status says whether a walk is in flight; no token is left while a root walk is in flight or
  once a failure waits for a throw's walk; an ended instance has no open scope;
* `Phase.Keeps` : what most operations leave of it. Every move keeps the phase (`Move.phase`, `End.phase`).
-/

namespace Wrkflw

open ControlState

variable {cur : CompensationCursor}

structure WalkOK (root : List CompensationRecord) (cur : CompensationCursor) : Prop where
  index : 0 ≤ cur.nextIndex
  mode : (cur.resumeNode ≠ "" ∧ cur.toNode = "" ∧ cur.reverseNode = "" ∧ cur.nextIndex < cur.records.length) ∨
    (cur.resumeNode = "" ∧ cur.records = [] ∧ cur.archiveKey = "" ∧ cur.scopeID = "" ∧ cur.nextIndex < root.length)

structure Phase (g : IDGenerator) (s : ControlState) : Prop where
  status : s.status = .compensating ↔ s.InFlight
  idle : ¬ s.InFlight → s.compensating = {}
  ended : s.status.isTerminal = true → s.scopes = []
  sealed : s.Sealed → s.tokens = []
  failing : FailureDeferred s.trace → s.status.isTerminal = true ∨ (s.InFlight ∧ s.compensating.toNode = "" ∧
    ((s.compensating.resumeNode ≠ "" ∧ s.pendingCancel = true) ∨
      (s.compensating.resumeNode = "" ∧ s.compensating.reverseNode = "")))
  walk : s.InFlight → WalkOK s.rootCompensations s.compensating
  minted : s.InFlight → Minted g .command s.cmdSeq s.compensating.activeCmdID
  finals : s.compensating.finalStatus.Aborts ∧ s.pendingFinalStatus.Aborts

theorem phase_init (g : IDGenerator) (inst : String) : Phase g { instanceID := inst } where
  status := by simp [InFlight]
  idle := fun _ => rfl
  ended := by simp [Status.isTerminal]
  sealed := fun _ => rfl
  failing := by simp [FailureDeferred]
  walk := by simp [InFlight]
  minted := by simp [InFlight]
  finals := ⟨Or.inl rfl, Or.inl rfl⟩

theorem not_inFlight_settled (s : ControlState) : ¬ s.settled.InFlight := by simp [settled, InFlight]

variable {g : IDGenerator} {s s' : ControlState}

/-! ## The record a walk stands on -/

theorem WalkOK.currentRecord (h : WalkOK s.rootCompensations s.compensating) : ∃ rec, s.currentRecord = some rec := by
  unfold ControlState.currentRecord
  have hi := h.index
  rw [if_neg (by omega)]
  have hlt : s.compensating.nextIndex.toNat < (s.cursorRecords s.compensating).length := by
    unfold cursorRecords
    rcases h.mode with ⟨-, -, -, hlt⟩ | ⟨-, hrec, hkey, hscope, hlt⟩
    · have hne : s.compensating.records ≠ [] := by
        intro h0
        rw [h0] at hlt
        simp at hlt
        omega
      rw [if_pos (by simpa using hne)]
      omega
    · simp only [hrec, hkey, hscope, List.isEmpty_nil, Bool.not_true, Bool.false_eq_true, if_false, bne_self_eq_false,
        compensationRecordsForScope, beq_self_eq_true, if_true]
      omega
  exact ⟨_, List.getElem?_eq_getElem hlt⟩

theorem WalkOK.grow {root root' : List CompensationRecord} {cur' : CompensationCursor} (h : WalkOK root cur)
    (hroot : root.length ≤ root'.length) (hcur : cur'.bare = cur.bare) : WalkOK root' cur' := by
  have hf : ∀ {β : Type} (f : CompensationCursor → β), f cur'.bare = f cur.bare := fun f => congrArg f hcur
  have hidx : cur'.nextIndex = cur.nextIndex := hf CompensationCursor.nextIndex
  have hrec : cur'.records = cur.records := hf CompensationCursor.records
  refine ⟨hidx ▸ h.index, ?_⟩
  rcases h.mode with ⟨h1, h2, h3, h4⟩ | ⟨h1, h2, h3, h4, h5⟩
  · refine Or.inl ⟨?_, ?_, ?_, ?_⟩
    · exact (hf CompensationCursor.resumeNode :).trans_ne h1
    · exact (hf CompensationCursor.toNode :).trans h2
    · exact (hf CompensationCursor.reverseNode :).trans h3
    · rw [hidx, hrec]
      exact h4
  · refine Or.inr ⟨?_, ?_, ?_, ?_, ?_⟩
    · exact (hf CompensationCursor.resumeNode :).trans h1
    · exact hrec.trans h2
    · exact (hf CompensationCursor.archiveKey :).trans h3
    · exact (hf CompensationCursor.scopeID :).trans h4
    · rw [hidx]
      exact lt_of_lt_of_le h5 (by exact_mod_cast hroot)

/-! ## Operations that keep the phase -/

namespace Phase

structure Keeps (s s' : ControlState) : Prop where
  status : s'.status = s.status
  cursor : s'.compensating.bare = s.compensating.bare
  idle : ¬ s.InFlight → s'.compensating = s.compensating
  tokens : s.tokens = [] → s'.tokens = []
  scopes : s.scopes = [] → s'.scopes = []
  root : s.InFlight → s.rootCompensations.length ≤ s'.rootCompensations.length
  pendingCancel : s'.pendingCancel = s.pendingCancel
  pendingFinalStatus : s'.pendingFinalStatus = s.pendingFinalStatus
  cmdSeq : s.cmdSeq ≤ s'.cmdSeq
  trace : FailureDeferred s'.trace → FailureDeferred s.trace

theorem Keeps.activeCmdID (h : Keeps s s') : s'.compensating.activeCmdID = s.compensating.activeCmdID :=
  (congrArg CompensationCursor.activeCmdID h.cursor :)

theorem Keeps.inFlight (h : Keeps s s') : s'.InFlight ↔ s.InFlight := by
  unfold InFlight
  rw [h.activeCmdID]

theorem Keeps.resumeNode (h : Keeps s s') : s'.compensating.resumeNode = s.compensating.resumeNode :=
  (congrArg CompensationCursor.resumeNode h.cursor :)

theorem Keeps.toNode (h : Keeps s s') : s'.compensating.toNode = s.compensating.toNode :=
  (congrArg CompensationCursor.toNode h.cursor :)

theorem Keeps.reverseNode (h : Keeps s s') : s'.compensating.reverseNode = s.compensating.reverseNode :=
  (congrArg CompensationCursor.reverseNode h.cursor :)

theorem Keeps.rootWalk (h : Keeps s s') : s'.RootWalk ↔ s.RootWalk := by
  unfold RootWalk
  rw [h.inFlight, h.resumeNode, h.toNode]

theorem Keeps.sealed (h : Keeps s s') (hs : s'.Sealed) : s.Sealed := hs.imp h.rootWalk.mp h.trace

theorem Keeps.forward (h : Keeps s s') (hfwd : s.Forward) : s'.Forward :=
  ⟨by rw [h.status]; exact hfwd.live, fun hs => hfwd.unsealed (h.sealed hs)⟩

theorem Keeps.refl (s : ControlState) : Keeps s s where
  status := rfl
  cursor := rfl
  idle := fun _ => rfl
  tokens := fun h => h
  scopes := fun h => h
  root := fun _ => le_rfl
  pendingCancel := rfl
  pendingFinalStatus := rfl
  cmdSeq := le_rfl
  trace := fun h => h

theorem Keeps.trans {s1 s2 s3 : ControlState} (h1 : Keeps s1 s2) (h2 : Keeps s2 s3) : Keeps s1 s3 where
  status := h2.status.trans h1.status
  cursor := h2.cursor.trans h1.cursor
  idle := fun h => (h2.idle (fun h' => h (h1.inFlight.mp h'))).trans (h1.idle h)
  tokens := fun h => h2.tokens (h1.tokens h)
  scopes := fun h => h2.scopes (h1.scopes h)
  root := fun h => (h1.root h).trans (h2.root (h1.inFlight.mpr h))
  pendingCancel := h2.pendingCancel.trans h1.pendingCancel
  pendingFinalStatus := h2.pendingFinalStatus.trans h1.pendingFinalStatus
  cmdSeq := h1.cmdSeq.trans h2.cmdSeq
  trace := fun h => h1.trace (h2.trace h)

theorem Keeps.finalStatus (h : Keeps s s') : s'.compensating.finalStatus = s.compensating.finalStatus :=
  (congrArg CompensationCursor.finalStatus h.cursor :)

/-- The phase without what it says about tokens and open scopes. -/
theorem of_keeps' (h : Phase g s) (hstatus : s'.status = s.status) (hcursor : s'.compensating.bare = s.compensating.bare)
    (hidle : ¬ s.InFlight → s'.compensating = s.compensating)
    (hroot : s.InFlight → s.rootCompensations.length ≤ s'.rootCompensations.length)
    (hpc : s'.pendingCancel = s.pendingCancel) (hpf : s'.pendingFinalStatus = s.pendingFinalStatus)
    (hcmd : s.cmdSeq ≤ s'.cmdSeq) (htr : FailureDeferred s'.trace → FailureDeferred s.trace)
    (hended : s'.status.isTerminal = true → s'.scopes = []) (hsealed : s'.Sealed → s'.tokens = []) : Phase g s' := by
  have hf : ∀ {β : Type} (f : CompensationCursor → β), f s'.compensating.bare = f s.compensating.bare :=
    fun f => congrArg f hcursor
  have hact : s'.compensating.activeCmdID = s.compensating.activeCmdID := hf CompensationCursor.activeCmdID
  have hin : s'.InFlight ↔ s.InFlight := by
    unfold InFlight
    rw [hact]
  refine ⟨?_, fun hn => ?_, hended, hsealed, fun hd => ?_, fun hw => ?_, fun hw => ?_, ?_, ?_⟩
  · rw [hstatus, hin]
    exact h.status
  · have hn' : ¬ s.InFlight := fun hw => hn (hin.mpr hw)
    rw [hidle hn']
    exact h.idle hn'
  · have hto : s'.compensating.toNode = s.compensating.toNode := hf CompensationCursor.toNode
    have hres : s'.compensating.resumeNode = s.compensating.resumeNode := hf CompensationCursor.resumeNode
    have hrev : s'.compensating.reverseNode = s.compensating.reverseNode := hf CompensationCursor.reverseNode
    rw [hstatus, hin, hto, hres, hrev, hpc]
    exact h.failing (htr hd)
  · exact (h.walk (hin.mp hw)).grow (hroot (hin.mp hw)) hcursor
  · rw [hact]
    exact (h.minted (hin.mp hw)).mono hcmd
  · have hfin : s'.compensating.finalStatus = s.compensating.finalStatus := hf CompensationCursor.finalStatus
    rw [hfin]
    exact h.finals.1
  · rw [hpf]
    exact h.finals.2

theorem of_keeps (h : Phase g s) (hk : Keeps s s') : Phase g s' := by
  refine h.of_keeps' hk.status hk.cursor hk.idle hk.root hk.pendingCancel hk.pendingFinalStatus hk.cmdSeq hk.trace ?_ ?_
  · intro ht
    rw [hk.status] at ht
    exact hk.scopes (h.ended ht)
  · exact fun hs => hk.tokens (h.sealed (hk.sealed hs))

/-- While new work may start, tokens and scopes may come. -/
theorem of_forward (h : Phase g s) (hfwd : s.Forward) (hstatus : s'.status = s.status)
    (hcursor : s'.compensating = s.compensating) (hroot : s.rootCompensations.length ≤ s'.rootCompensations.length)
    (hpc : s'.pendingCancel = s.pendingCancel) (hpf : s'.pendingFinalStatus = s.pendingFinalStatus)
    (hcmd : s.cmdSeq ≤ s'.cmdSeq) (htr : FailureDeferred s'.trace → FailureDeferred s.trace) : Phase g s' := by
  refine h.of_keeps' hstatus (by rw [hcursor]) (fun _ => hcursor) (fun _ => hroot) hpc hpf hcmd htr ?_ ?_
  · intro ht
    rw [hstatus, hfwd.live] at ht
    cases ht
  · intro hs
    refine absurd (hs.imp ?_ htr) hfwd.unsealed
    unfold RootWalk InFlight
    rw [hcursor]
    exact fun h => h

end Phase

/-! ## Which operations keep it -/

/-- The event defers no failure. -/
def Event.DefersNothing : Event → Prop
  | .deferredFailure .. => False
  | _ => True

theorem failureDeferred_cons {e : Event} {trace : List Event} (he : e.DefersNothing) :
    FailureDeferred (e :: trace) → FailureDeferred trace := by
  rintro ⟨err, cur, hmem, hres⟩
  rcases List.mem_cons.mp hmem with rfl | hmem
  · exact he.elim
  · exact ⟨err, cur, hmem, hres⟩

namespace Phase.Keeps

theorem thenNote {s1 : ControlState} (h : Keeps s s1) {e : Event} (he : e.DefersNothing) :
    Keeps s (s1.note e) := h.trans { Keeps.refl s1 with trace := failureDeferred_cons he }

theorem updateToken (s : ControlState) (id : String) (f : Token → Token) : Keeps s (s.updateToken id f) :=
  { Keeps.refl s with tokens := fun h => by simp [ControlState.updateToken, h] }

theorem filterTokens (s : ControlState) (p : Token → Bool) : Keeps s { s with tokens := s.tokens.filter p } :=
  { Keeps.refl s with tokens := fun h => by simp [h] }

theorem filterScopes (s : ControlState) (p : Scope → Bool) : Keeps s { s with scopes := s.scopes.filter p } :=
  { Keeps.refl s with scopes := fun h => by simp [h] }

theorem removeToken (s : ControlState) (id : String) : Keeps s (s.removeToken id) := by
  obtain ⟨p, he, -⟩ := s.removeToken_shape id
  exact he ▸ filterTokens s p

theorem cancelToken (s : ControlState) (tok : Token) (at_ : Time) (kind : CloseKind) :
    Keeps s (s.cancelToken tok at_ kind) := by
  rcases s.cancelToken_shape tok at_ kind with he | ⟨t, -, -, -, h, -, he⟩
  · rw [he]
    exact Keeps.refl s
  · rw [he]
    exact { Keeps.refl s with
            tokens := fun h => by simp [h]
            trace := failureDeferred_cons (e := .cancelled t _ _) trivial }

theorem cancelListed (at_ : Time) (kind : CloseKind) (toks : List Token) (s : ControlState) :
    Keeps s (s.cancelListed at_ kind toks) := by
  induction toks generalizing s with
  | nil => exact Keeps.refl s
  | cons tok toks ih => exact (cancelToken s tok at_ kind).trans (ih _)

theorem closeScope (s : ControlState) (id : String) : Keeps s (s.closeScope id) := by
  obtain ⟨p, he⟩ := s.closeScope_shape id
  exact he ▸ filterScopes s p

/-- A change of the records that spares the root's list, and the cursor of a state without a walk. -/
theorem of_outline (h : s'.outline = s.outline)
    (hroot : s.InFlight → s.rootCompensations.length ≤ s'.rootCompensations.length)
    (hidle : ¬ s.InFlight → s'.compensating = s.compensating) : Keeps s s' := by
  have ho := sameOutline h
  refine ⟨ho.status, ho.compensating, hidle, fun ht => ho.tokens.trans ht, fun hsc => ?_, hroot, ho.pendingCancel,
    ho.pendingFinalStatus, ho.cmdSeq.ge, fun hd => ?_⟩
  · have hb := ho.scopes
    rw [hsc] at hb
    exact List.map_eq_nil_iff.mp hb
  · rw [ho.trace] at hd
    exact hd

theorem archiveCompensations (s : ControlState) (id : String) : Keeps s (s.archiveCompensations id) := by
  refine of_outline (s.archiveCompensations_outline id) (fun _ => ?_) (fun hidle => ?_)
  · unfold ControlState.archiveCompensations
    split
    · exact le_rfl
    · split <;> exact le_rfl
  · -- no walk is in flight, so no window is opened
    have hdrain : ∀ recs, (s.partitionForLiveWalk id recs).2 = none := by
      intro recs
      have hact : s.compensating.activeCmdID = "" := not_not.mp hidle
      simp [partitionForLiveWalk, scopeWideWalkDraining, hact]
    unfold ControlState.archiveCompensations
    split
    · rfl
    · split
      · rfl
      · dsimp only
        rw [hdrain]
        rfl

theorem archiveAll (ids : List String) (s : ControlState) : Keeps s (s.archiveAll ids) := by
  induction ids generalizing s with
  | nil => exact Keeps.refl s
  | cons id ids ih => exact (archiveCompensations s id).trans (ih _)

theorem consolidate (s : ControlState) (hidle : ¬ s.InFlight) : Keeps s s.consolidateArchiveIntoRoot := by
  refine of_outline s.consolidate_outline (fun h => absurd h hidle) (fun _ => ?_)
  unfold consolidateArchiveIntoRoot
  split <;> rfl

theorem sweep (h : Sweep s s') (hidle : ¬ s.InFlight) : Keeps s s' := by
  cases h with
  | archive id => exact archiveCompensations s id
  | cancel tok at_ kind => exact cancelToken s tok at_ kind
  | consolidate => exact consolidate s hidle

theorem sweeps (h : Sweeps s s') (hidle : ¬ s.InFlight) : Keeps s s' := by
  induction h with
  | refl => exact Keeps.refl s
  | tail _ hstep ih => exact ih.trans (sweep hstep (fun h => hidle (ih.inFlight.mp h)))

theorem parkedOn {p : ControlState} {node : Node} {scopeID : String} (h : ParkedOn s p node scopeID) : Keeps s p := by
  rcases h with rfl | ⟨tok, -, -, -, -, rfl⟩
  · exact Keeps.refl p
  · exact updateToken s _ _

theorem recordCompensation (s : ControlState) (scope : String) (rec : CompensationRecord) :
    Keeps s (s.recordCompensation scope rec) := by
  unfold ControlState.recordCompensation
  split
  · refine Keeps.thenNote ?_ (by trivial)
    exact { Keeps.refl s with root := fun _ => by simp }
  · split
    · exact Keeps.refl s
    · exact Keeps.thenNote (of_outline (s.setCompensations_outline _ _) (fun _ => le_rfl) (fun _ => rfl)) (by trivial)

end Phase.Keeps

/-! ## Beginning, resuming and ending -/

theorem inFlight_nextCmdID (g : IDGenerator) (s : ControlState) : s.nextCmdID g ≠ "" := g.newID_ne_empty _ _

/-- A walk that dispatches takes nothing off the root's list. -/
theorem Phase.of_announce {idx : Int} {rec : CompensationRecord} {cmdID : String}
    (hcmd : cur.activeCmdID ≠ "") (h : Phase g (s.announce cur rec cmdID)) : Phase g (s.dispatch cur idx rec cmdID) := by
  refine h.of_keeps (Keeps.of_outline (dispatch_outline s cur idx rec cmdID) (fun _ => ?_) (fun hidle => ?_))
  · exact (dispatch_rootCompensations s cur idx rec cmdID).symm ▸ le_rfl
  · exact absurd hcmd hidle

namespace Phase

theorem beginWalk {p : ControlState} {o : CompensationOutcome} {rec : CompensationRecord} (at_ : Time)
    (htok : p.tokens = []) (hrec : p.rootCompensations.getLast? = some rec) (ho : o.finalStatus.Aborts)
    (hp : p.pendingFinalStatus.Aborts) (hfail : FailureDeferred p.trace → o.toNode = "" ∧ o.reverseNode = "") :
    Phase g (p.beginWalk g o at_ rec) := by
  have hin : (p.beginWalk g o at_ rec).InFlight := inFlight_nextCmdID g p
  have hne : p.rootCompensations ≠ [] := by
    intro h
    rw [h] at hrec
    cases hrec
  have hpos : 0 < p.rootCompensations.length := List.length_pos_iff.mpr hne
  have htr : FailureDeferred (p.beginWalk g o at_ rec).trace → FailureDeferred p.trace :=
    failureDeferred_cons (e := .dispatched rec (p.nextCmdID g)) trivial
  refine ⟨iff_of_true rfl hin, fun h => absurd hin h, fun h => ?_, fun _ => htok, fun h => ?_, fun _ => ?_, fun _ => ?_,
    ho, hp⟩
  · cases h
  · obtain ⟨h1, h2⟩ := hfail (htr h)
    exact Or.inr ⟨hin, h1, Or.inr ⟨rfl, h2⟩⟩
  · refine ⟨?_, Or.inr ⟨rfl, rfl, rfl, rfl, ?_⟩⟩
    · change (0 : Int) ≤ (p.rootCompensations.length : Int) - 1
      omega
    · change (p.rootCompensations.length : Int) - 1 < p.rootCompensations.length
      omega
  · exact minted_self g .command (p.cmdSeq + 1)

theorem endControl (s : ControlState) {st : Status} (err : String) (hst : st.isTerminal = true)
    (hp : s.pendingFinalStatus.Aborts) (hfail : FailureDeferred s.trace → s.tokens = []) :
    Phase g (s.endControl st err) := by
  have ho := sameOutline (harvest_outline { s with status := st })
  have hstat : (s.endControl st err).status = st := ho.status
  have hnot : ¬ (s.endControl st err).InFlight := by simp [ControlState.endControl, InFlight]
  have htr : FailureDeferred (s.endControl st err).trace → FailureDeferred s.trace := by
    intro h
    have h' := failureDeferred_cons (e := .ended st err s.compensating) trivial h
    rw [ho.trace] at h'
    exact h'
  refine ⟨?_, fun _ => rfl, fun _ => rfl, fun h => ?_, fun _ => Or.inl ?_, fun h => absurd h hnot,
    fun h => absurd h hnot, Or.inl rfl, ?_⟩
  · rw [hstat]
    refine iff_of_false ?_ hnot
    rintro rfl
    cases hst
  · have htok : (s.endControl st err).tokens = s.tokens := ho.tokens
    rw [htok]
    rcases h with h | h
    · exact absurd h.1 hnot
    · exact hfail (htr h)
  · rw [hstat]
    exact hst
  · have hpf : (s.endControl st err).pendingFinalStatus = s.pendingFinalStatus := ho.pendingFinalStatus
    rw [hpf]
    exact hp

/-- A state with a walk in flight. -/
theorem walking {s : ControlState} (hst : s.status = .compensating) (hin : s.InFlight) (hsealed : s.Sealed → s.tokens = [])
    (hfail : FailureDeferred s.trace → s.compensating.toNode = "" ∧
      ((s.compensating.resumeNode ≠ "" ∧ s.pendingCancel = true) ∨
        (s.compensating.resumeNode = "" ∧ s.compensating.reverseNode = "")))
    (hwalk : WalkOK s.rootCompensations s.compensating) (hmint : Minted g .command s.cmdSeq s.compensating.activeCmdID)
    (hfin : s.compensating.finalStatus.Aborts) (hp : s.pendingFinalStatus.Aborts) : Phase g s := by
  refine ⟨iff_of_true hst hin, fun h => absurd hin h, fun h => ?_, hsealed, fun h => Or.inr ⟨hin, hfail h⟩,
    fun _ => hwalk, fun _ => hmint, hfin, hp⟩
  rw [hst] at h
  cases h

/-- The cursor of a walk in flight moves to another record under a new command. -/
theorem moveCursor (h : Phase g s) (hin : s.InFlight) (cur : CompensationCursor)
    (hact : cur.activeCmdID = s.nextCmdID g) (hres : cur.resumeNode = s.compensating.resumeNode)
    (hto : cur.toNode = s.compensating.toNode) (hrev : cur.reverseNode = s.compensating.reverseNode)
    (hfin : cur.finalStatus = s.compensating.finalStatus) (hwalk : WalkOK s.rootCompensations cur)
    {e : Event} (he : e.DefersNothing) (r : List String) :
    Phase g ({ s.mintCommand with compensating := cur, recentCompensationCmdIDs := r }.note e) := by
  have hin' : ({ s.mintCommand with compensating := cur, recentCompensationCmdIDs := r }.note e).InFlight := by
    change cur.activeCmdID ≠ ""
    rw [hact]
    exact inFlight_nextCmdID g s
  refine walking (h.status.mpr hin) hin' (fun hs => h.sealed ?_) (fun hd => ?_) hwalk ?_ ?_ h.finals.2
  · rcases hs with ⟨-, h1, h2⟩ | hd
    · exact Or.inl ⟨hin, hres ▸ h1, hto ▸ h2⟩
    · exact Or.inr (failureDeferred_cons he hd)
  · rcases h.failing (failureDeferred_cons he hd) with ht | ⟨-, hf⟩
    · rw [h.status.mpr hin] at ht
      cases ht
    · change cur.toNode = "" ∧ ((cur.resumeNode ≠ "" ∧ s.pendingCancel = true) ∨
        (cur.resumeNode = "" ∧ cur.reverseNode = ""))
      rw [hres, hto, hrev]
      exact hf
  · change Minted g .command (s.cmdSeq + 1) cur.activeCmdID
    rw [hact]
    exact minted_self g .command (s.cmdSeq + 1)
  · change cur.finalStatus.Aborts
    rw [hfin]
    exact h.finals.1

/-- The state after a resume: it runs and no walk is in flight. -/
theorem running {s : ControlState} (hst : s.status = .running) (hcur : s.compensating = {})
    (hp : s.pendingFinalStatus.Aborts) (hfail : ¬ FailureDeferred s.trace) : Phase g s := by
  have hnot : ¬ s.InFlight := by
    unfold InFlight
    rw [hcur]
    exact not_not.mpr rfl
  refine ⟨iff_of_false (by rw [hst]; decide) hnot, fun _ => hcur, fun h => ?_, fun h => ?_, fun h => absurd h hfail,
    fun h => absurd h hnot, fun h => absurd h hnot, ?_, hp⟩
  · rw [hst] at h
    cases h
  · rcases h with h | h
    · exact absurd h.1 hnot
    · exact absurd h hfail
  · rw [hcur]
    exact Or.inl rfl

/-- A walk that may resume was not overtaken by a failure. -/
theorem not_failureDeferred {trg : TriggerBody} (h : Phase g s) (hfin : Finishing trg s cur)
    (hres : (finishPlan s.settled cur).resume = true)
    (hpend : (finishPlan s.settled cur).consumePendingCancel = true → s.pendingCancel = false) :
    ¬ FailureDeferred s.trace := by
  intro hd
  cases hfin with
  | walk hflight hans =>
    rcases h.failing hd with ht | ⟨-, hto, ⟨hthrow, hpc⟩ | ⟨hroot, hrev⟩⟩
    · rw [h.status.mpr hflight] at ht
      cases ht
    · rw [hpend (finishPlan_throw _ hthrow)] at hpc
      cases hpc
    · rw [finishPlan_admin _ (walkMode_eq_admin.mpr ⟨hroot, hto, hrev⟩)] at hres
      cases hres
  | idle o hidle hclear hasked hnone =>
    rcases h.failing hd with ht | ⟨hin, -⟩
    · obtain ⟨hto, hrev⟩ := hasked.terminal ht
      rw [finishPlan_admin _ (walkMode_eq_admin.mpr ⟨rfl, hto, hrev⟩)] at hres
      cases hres
    · exact hidle hin

end Phase

/-- The fields of the resumed state the phase is about. -/
theorem resumeControl_fields (g : IDGenerator) (at_ : Time) (plan : FinishPlan) (s : ControlState) :
    (resumeControl g at_ plan s).status = .running ∧ (resumeControl g at_ plan s).compensating = s.compensating ∧
      (resumeControl g at_ plan s).pendingFinalStatus = s.pendingFinalStatus ∧
      (FailureDeferred (resumeControl g at_ plan s).trace → FailureDeferred s.trace) := by
  have ho := sameOutline (applyPlanRecordClearing_outline plan s)
  have hcur := applyPlanRecordClearing_compensating plan s
  have hnote : ∀ e : Event, e.DefersNothing → FailureDeferred (e :: (applyPlanRecordClearing plan s).trace) →
      FailureDeferred s.trace := fun e he h => ho.trace ▸ failureDeferred_cons he h
  have hpop : ∀ p : ControlState, p.popOneDeferredThrow.status = p.status ∧
      p.popOneDeferredThrow.compensating = p.compensating ∧
      p.popOneDeferredThrow.pendingFinalStatus = p.pendingFinalStatus ∧
      (FailureDeferred p.popOneDeferredThrow.trace → FailureDeferred p.trace) := by
    intro p
    unfold popOneDeferredThrow
    split
    · exact ⟨rfl, rfl, rfl, fun h => h⟩
    · dsimp only
      split
      · exact ⟨rfl, rfl, rfl, failureDeferred_cons (e := .reactivated _) trivial⟩
      · exact ⟨rfl, rfl, rfl, fun h => h⟩
  unfold resumeControl
  dsimp only
  have hplaced : ∀ b : Bool, ∀ p, p = (if b then
      ({ applyPlanRecordClearing plan s with status := .running }.note
        (.resumed plan.popDeferred s.deferredCompensationThrows))
      else ({ applyPlanRecordClearing plan s with status := .running }.note
        (.resumed plan.popDeferred s.deferredCompensationThrows)).placeTokenInScope g plan.resumeAt plan.resumeScope
          plan.resumeFlow at_) →
      p.status = .running ∧ p.compensating = s.compensating ∧ p.pendingFinalStatus = s.pendingFinalStatus ∧
        (FailureDeferred p.trace → FailureDeferred s.trace) := by
    rintro b p rfl
    cases b
    · exact ⟨rfl, hcur, ho.pendingFinalStatus, fun h => hnote (.resumed _ _) trivial
        (failureDeferred_cons (e := .arrived _ _ _ _) trivial h)⟩
    · exact ⟨rfl, hcur, ho.pendingFinalStatus, hnote (.resumed _ _) trivial⟩
  split
  · obtain ⟨p1, p2, p3, p4⟩ := hplaced _ _ rfl
    obtain ⟨q1, q2, q3, q4⟩ := hpop _
    exact ⟨q1.trans p1, q2.trans p2, q3.trans p3, fun h => p4 (q4 h)⟩
  · exact hplaced _ _ rfl

/-! ## Moves -/

theorem takePending_keeps (plan : FinishPlan) (s : ControlState) :
    (takePending plan s).compensating = s.compensating ∧ (takePending plan s).tokens = s.tokens ∧
      (takePending plan s).pendingFinalStatus = .running ∧ (takePending plan s).trace = s.trace := by
  have ho := sameOutline (applyPlanRecordClearing_outline plan
    { s with pendingCancel := false, pendingFinalStatus := .running, pendingFinalErr := "" })
  exact ⟨applyPlanRecordClearing_compensating plan _, ho.tokens, ho.pendingFinalStatus, ho.trace⟩

section Moves
variable {top : ProcessDefinition} {trg : TriggerBody}

open Phase

/-- What is left when the pending cancel's walk begins or ends at once. -/
theorem pending_swept {p : ControlState}
    (hsweep : Sweeps (takePending (finishPlan s.settled cur) (applyDeleteArchive (finishPlan s.settled cur) s.settled)) p) :
    p.pendingFinalStatus = .running ∧ (FailureDeferred p.trace → FailureDeferred s.trace) ∧ p.compensating = {} := by
  obtain ⟨hcur, -, hpf, htr⟩ := takePending_keeps (finishPlan s.settled cur)
    (applyDeleteArchive (finishPlan s.settled cur) s.settled)
  have hdel := sameOutline (applyDeleteArchive_outline (finishPlan s.settled cur) s.settled)
  rw [applyDeleteArchive_compensating] at hcur
  have hidle : ¬ (takePending (finishPlan s.settled cur)
      (applyDeleteArchive (finishPlan s.settled cur) s.settled)).InFlight := by
    unfold InFlight
    rw [hcur]
    exact not_not.mpr rfl
  have hk := Keeps.sweeps hsweep hidle
  refine ⟨hk.pendingFinalStatus.trans hpf, fun h => ?_, (hk.idle hidle).trans hcur⟩
  have h' := hk.trace h
  rw [htr, hdel.trace] at h'
  exact h'

theorem Move.phase (hs : Phase g s) (hmove : Move top g trg s s') : Phase g s' := by
  cases hmove with
  | book h n hh hn => exact hs.of_keeps { Keeps.refl s with cmdSeq := hn }
  | place node scope flow at_ hfwd hscope =>
    exact hs.of_forward hfwd rfl rfl le_rfl rfl rfl le_rfl (failureDeferred_cons (e := .arrived _ _ _ _) trivial)
  | touch id f hf => exact hs.of_keeps (Keeps.updateToken s id f)
  | leave id target scope flow f hmem hf => exact hs.of_keeps ((Keeps.updateToken s id f).thenNote (by trivial))
  | pass tok hthrow => exact hs.of_keeps ((Keeps.refl s).thenNote (by trivial))
  | resolve tok f hmem hf =>
    have hnote : Keeps s (s.note (.resolved tok s.deferredCompensationThrows)) := (Keeps.refl s).thenNote (by trivial)
    exact hs.of_keeps (hnote.trans (Keeps.updateToken _ tok.id f))
  | consume tok hmem hfree => exact hs.of_keeps (Keeps.removeToken s tok.id)
  | cancel tok at_ kind => exact hs.of_keeps (Keeps.cancelToken s tok at_ kind)
  | park p d node scopeID kind at_ hp hsite hkind hnone => exact hs.of_keeps (Keeps.parkedOn hp)
  | fireParallel p d node scopeID consumed hp hsite hmatch =>
    have hnote := (Keeps.parkedOn hp).thenNote (by trivial) (e := .parallelFired scopeID node.id consumed)
    exact hs.of_keeps (hnote.trans (Keeps.filterTokens _ _))
  | fireInclusive p d node scopeID consumed hp hsite htok hsub hcons =>
    have hnote := (Keeps.parkedOn hp).thenNote (by trivial)
      (e := .inclusiveFired scopeID node.id consumed p.tokens p.scopes p.compensating)
    exact hs.of_keeps (hnote.trans (Keeps.filterTokens _ _))
  | openScope node parent hfwd hparent hopens =>
    exact hs.of_forward hfwd rfl rfl le_rfl rfl rfl le_rfl (failureDeferred_cons (e := .opened _ _ _) trivial)
  | teardown scope => exact hs.of_keeps ((Keeps.archiveAll _ s).trans (Keeps.closeScope _ scope))
  | interrupt scope => exact hs.of_keeps (((Keeps.archiveAll _ s).trans (Keeps.filterScopes _ _)).thenNote (by trivial))
  | exit scope enclosing hne htok hchild hhold =>
    have hnote := (Keeps.refl s).thenNote (by trivial) (e := .exited scope enclosing s.tokens s.scopes s.compensating)
    exact hs.of_keeps ((hnote.trans (Keeps.archiveCompensations _ scope)).trans (Keeps.closeScope _ scope))
  | record scope rec hfwd hhist => exact hs.of_keeps (Keeps.recordCompensation s scope rec)
  | sweep s' hidle hsweep => exact hs.of_keeps (Keeps.sweep hsweep hidle)
  | deferThrow tok hthrow hflight =>
    have hset := hs.of_keeps (Keeps.updateToken s tok.id (fun t => { t with state := .waiting }))
    exact hset.of_keeps { Keeps.refl _ with }
  | throwWalk tok at_ cur rec hthrow hfwd hidle hcur =>
    have hcmd : cur.activeCmdID ≠ "" := hcur.active ▸ inFlight_nextCmdID g s
    refine Phase.of_announce hcmd ?_
    obtain ⟨v, -, he⟩ := s.mintCommand.consumeTokenAs_shape tok at_ .normal
    have hk : Keeps s.mintCommand (s.mintCommand.consumeTokenAs tok at_ .normal) := by
      rw [he]
      exact (Keeps.removeToken _ tok.id).trans { Keeps.refl _ with }
    have hlen : 0 < cur.records.length := by
      refine List.length_pos_iff.mpr (fun h => ?_)
      have hlast := hcur.last
      rw [h] at hlast
      cases hlast
    -- the throw may start only while no failure is deferred, so nothing is sealed
    have hnofail : ¬ FailureDeferred ((s.mintCommand.consumeTokenAs tok at_ .normal).announce cur rec
        (s.nextCmdID g)).trace :=
      fun hd => hfwd.unsealed (Or.inr (hk.trace (failureDeferred_cons (e := .dispatched _ _) trivial hd)))
    refine Phase.walking rfl hcmd (fun hsd => ?_) (fun hd => absurd hd hnofail) ?_ ?_ ?_ ?_
    · rcases hsd with ⟨-, h1, -⟩ | hd
      · exact absurd h1 hcur.resumeNode
      · exact absurd hd hnofail
    · have hidx : (0 : Int) ≤ cur.nextIndex := by
        rw [hcur.nextIndex]
        omega
      have hlt : cur.nextIndex < cur.records.length := by
        rw [hcur.nextIndex]
        omega
      exact ⟨hidx, Or.inl ⟨hcur.resumeNode, hcur.toNode, hcur.reverseNode, hlt⟩⟩
    · have hseq : s.cmdSeq + 1 ≤ (s.mintCommand.consumeTokenAs tok at_ .normal).cmdSeq := hk.cmdSeq
      change Minted g .command (s.mintCommand.consumeTokenAs tok at_ .normal).cmdSeq cur.activeCmdID
      rw [hcur.active]
      exact (minted_self g .command (s.cmdSeq + 1)).mono hseq
    · exact Or.inl hcur.finalStatus
    · change (s.mintCommand.consumeTokenAs tok at_ .normal).pendingFinalStatus.Aborts
      rw [hk.pendingFinalStatus]
      exact hs.finals.2
  | next rec hflight hans hpos hto hrec =>
    refine Phase.of_announce (inFlight_nextCmdID g s) ?_
    have hw := hs.walk hflight
    refine hs.moveCursor hflight { s.compensating with
      nextIndex := s.compensating.nextIndex - 1, activeCmdID := s.nextCmdID g, retryAttempts := 0, retryTimerID := "" }
      rfl rfl rfl rfl rfl ⟨?_, ?_⟩ (e := .dispatched rec (s.nextCmdID g)) trivial _
    · change (0 : Int) ≤ s.compensating.nextIndex - 1
      omega
    · rcases hw.mode with ⟨h1, h2, h3, h4⟩ | ⟨h1, h2, h3, h4, h5⟩
      · exact Or.inl ⟨h1, h2, h3, lt_trans (Int.sub_one_lt_iff.mpr le_rfl) h4⟩
      · exact Or.inr ⟨h1, h2, h3, h4, lt_trans (Int.sub_one_lt_iff.mpr le_rfl) h5⟩
  | again rec attempts hflight hrec htrg =>
    have hw := hs.walk hflight
    exact hs.moveCursor hflight { s.compensating with
      activeCmdID := s.nextCmdID g, retryAttempts := attempts, retryTimerID := "" }
      rfl rfl rfl rfl rfl ⟨hw.index, hw.mode⟩ (e := .redispatched rec (s.nextCmdID g)) trivial _
  | retryLater timerID attempts hflight =>
    have hw := hs.walk hflight
    refine Phase.walking (hs.status.mpr hflight) hflight (fun hsd => hs.sealed hsd) (fun hd => ?_) ⟨hw.index, hw.mode⟩
      (hs.minted hflight) hs.finals.1 hs.finals.2
    rcases hs.failing hd with ht | ⟨-, hf⟩
    · rw [hs.status.mpr hflight] at ht
      cases ht
    · exact hf
  | pendCancel hflight hmode =>
    have htr : FailureDeferred (.cancelPended s.compensating :: s.trace) → FailureDeferred s.trace :=
      failureDeferred_cons trivial
    refine Phase.walking (hs.status.mpr hflight) hflight (fun hsd => hs.sealed (hsd.imp (fun h => h) htr)) (fun hd => ?_)
      (hs.walk hflight) (hs.minted hflight) hs.finals.1 (Or.inr (Or.inl rfl))
    rcases hs.failing (htr hd) with ht | ⟨-, hto, ⟨h1, -⟩ | h2⟩
    · rw [hs.status.mpr hflight] at ht
      cases ht
    · exact ⟨hto, Or.inl ⟨h1, rfl⟩⟩
    · exact ⟨hto, Or.inr h2⟩
  | pendFailure err hflight hfwd htok =>
    have hw := hs.walk hflight
    refine Phase.walking (hs.status.mpr hflight) hflight (fun _ => htok) (fun hd => ?_) hw (hs.minted hflight) hs.finals.1
      (Or.inr (Or.inr rfl))
    -- the instance was not sealed, so the walk is a throw's or a rollback to a node
    obtain ⟨err', cur, hmem, hres⟩ := hd
    rcases List.mem_cons.mp hmem with he | hmem
    · obtain ⟨-, rfl⟩ := Event.deferredFailure.inj he
      rcases hw.mode with ⟨h1, h2, -⟩ | ⟨h1, -⟩
      · exact ⟨h2, Or.inl ⟨h1, rfl⟩⟩
      · exact absurd h1 hres
    · exact absurd (Or.inr ⟨err', cur, hmem, hres⟩) hfwd.unsealed
  | begin at_ o rec hidle hclear hasked hrec =>
    refine beginWalk at_ hclear.tokens hrec hasked.finalStatus hs.finals.2 (fun hd => hasked.terminal ?_)
    rcases hs.failing hd with ht | ⟨hin, -⟩
    · exact ht
    · exact absurd hin hidle
  | resume cur at_ hfin hres hpend hscope =>
    obtain ⟨h1, h2, h3, h4⟩ := resumeControl_fields g at_ (finishPlan s.settled cur)
      (applyDeleteArchive (finishPlan s.settled cur) s.settled)
    have hdel := sameOutline (applyDeleteArchive_outline (finishPlan s.settled cur) s.settled)
    refine Phase.running h1 (h2.trans (applyDeleteArchive_compensating _ _)) ?_ ?_
    · rw [h3, hdel.pendingFinalStatus]
      exact hs.finals.2
    · intro hd
      have hd' := h4 hd
      rw [hdel.trace] at hd'
      exact hs.not_failureDeferred hfin hres hpend hd'
  | pendingWalk cur at_ p rec hfin hcons hpend hsweep hclear hrec =>
    obtain ⟨hpf, htr, -⟩ := pending_swept hsweep
    have hout := pendingOutcome_aborts hs.finals.2
    refine beginWalk at_ hclear.tokens hrec (Or.inr hout) ?_ (fun _ => ⟨rfl, rfl⟩)
    rw [hpf]
    exact Or.inl rfl

theorem Status.isTerminal_of_aborted {st : Status} (h : st = .terminated ∨ st = .failed) : st.isTerminal = true := by
  rcases h with rfl | rfl <;> rfl

theorem Finishing.finalStatus (hs : Phase g s) (hfin : Finishing trg s cur) :
    cur.finalStatus.Aborts := by
  cases hfin with
  | walk hflight hans => exact hs.finals.1
  | idle o hidle hclear hasked hnone => exact hasked.finalStatus

theorem End.phase (hs : Phase g s) (hend : End trg s s') : Phase g s' := by
  have hfail : FailureDeferred s.trace → s.tokens = [] := fun hd => hs.sealed (Or.inr hd)
  cases hend with
  | complete hlive hdrained => exact Phase.endControl s _ rfl hs.finals.2 hfail
  | idle st err hlive hidle hst =>
    exact Phase.endControl s _ (Status.isTerminal_of_aborted hst) hs.finals.2 hfail
  | childFailed err hlive htok =>
    exact Phase.endControl _ _ rfl hs.finals.2 (fun hd => hfail (failureDeferred_cons (e := .childFailed _ _) trivial hd))
  | forced outcome at_ err hlive htok =>
    have hnote := (Keeps.refl s).thenNote (by trivial) (e := .forced outcome s.pendingCancel)
    have hk := hnote.trans (Keeps.cancelListed at_ .terminated s.tokens _)
    refine Phase.endControl _ _ ?_ ?_ (fun hd => hk.tokens (hfail (hk.trace hd)))
    · cases outcome <;> rfl
    · rw [hk.pendingFinalStatus]
      exact hs.finals.2
  | terminate cur hfin hmode =>
    have ho := sameOutline (s.settled.mapRecords_outline cur.scopeID (fun _ => []))
    refine Phase.endControl _ _ (Status.isTerminal_of_aborted (finalStatusOf_aborts (hfin.finalStatus hs))) ?_ ?_
    · exact ho.pendingFinalStatus.symm ▸ hs.finals.2
    · intro hd
      exact ho.tokens.trans (hfail (ho.trace ▸ hd))
  | abandon hflight hans hmode =>
    have ho := sameOutline (s.settled.mapRecords_outline s.compensating.scopeID (fun _ => []))
    have hend : Phase g ((s.settled.clearRecords s.compensating.scopeID).endControl
        (finalStatusOf s.compensating.finalStatus) s.compensating.finalErr) := by
      refine Phase.endControl _ _ (Status.isTerminal_of_aborted (finalStatusOf_aborts hs.finals.1)) ?_ ?_
      · exact ho.pendingFinalStatus.symm ▸ hs.finals.2
      · intro hd
        exact ho.tokens.trans (hfail (ho.trace ▸ hd))
    refine hend.of_keeps (Keeps.of_outline (ControlState.mapRecords_outline _ _ _) (fun hin => ?_) (fun _ => ?_))
    · exact absurd rfl hin
    · exact mapRecords_compensating _ _ _
  | pending cur p hfin hcons hpend hsweep hclear hnone =>
    obtain ⟨hpf, htr, -⟩ := pending_swept hsweep
    have hout := pendingOutcome_aborts hs.finals.2
    refine Phase.endControl p _ (Status.isTerminal_of_aborted hout) ?_ (fun _ => hclear.tokens)
    rw [hpf]
    exact Or.inl rfl

end Moves

end Wrkflw
