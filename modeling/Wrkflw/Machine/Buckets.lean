import Wrkflw.Machine.Wf

/-!
# The archive's buckets

The archive is a map: every bucket has a key of its own. `Refiles` says that an operation keeps it so, and
`records_to_walk` what it is for: records of any bucket are found when the archive joins the root's records.
-/

namespace Wrkflw

open ControlState

/-- The buckets have different keys. -/
def Archive.Keyed (m : Archive) : Prop := (m.map (·.1)).Nodup

namespace Archive
variable {m : Archive}

theorem Keyed.set (h : m.Keyed) (key : String) (records : List CompensationRecord) : (m.set key records).Keyed := by
  unfold Archive.set
  split
  · have hkeys : (m.map (fun e => if e.1 == key then (key, records) else e)).map (·.1) = m.map (·.1) := by
      rw [List.map_map]
      refine List.map_congr_left (fun e _ => ?_)
      simp only [Function.comp_apply]
      split
      · rename_i he
        exact (beq_iff_eq.mp he).symm
      · rfl
    unfold Keyed
    rw [hkeys]
    exact h
  · rename_i hnone
    unfold Keyed
    rw [List.map_append, List.nodup_append]
    refine ⟨h, List.nodup_singleton _, fun k hk k' hk' => ?_⟩
    obtain ⟨e, he, rfl⟩ := List.mem_map.mp hk
    rw [List.mem_singleton.mp hk']
    intro heq
    exact hnone (List.any_eq_true.mpr ⟨e, he, by simpa using heq⟩)

theorem Keyed.erase (h : m.Keyed) (key : String) : (m.erase key).Keyed := (List.filter_sublist.map _).nodup h

theorem Keyed.dropAt (h : m.Keyed) (key : String) (i : Int) : (m.dropAt key i).Keyed := by
  unfold Archive.dropAt
  split
  · exact h
  · split
    · exact h.erase key
    · exact h.set key _

/-- A bucket is what its key gets. -/
theorem Keyed.get_eq (h : m.Keyed) {e : String × List CompensationRecord} (he : e ∈ m) : m.get e.1 = e.2 := by
  unfold Archive.get
  cases hfind : m.find? (fun e' => e'.1 == e.1) with
  | none => exact absurd (List.find?_eq_none.mp hfind e he) (by simp)
  | some e' =>
    have hmem := List.mem_of_find?_eq_some hfind
    have hkey : e'.1 = e.1 := by simpa using List.find?_some hfind
    rw [List.inj_on_of_nodup_map h hmem he hkey]

theorem Keyed.flattened_ne_nil (h : m.Keyed) (hany : m.any (fun e => !e.2.isEmpty) = true) : m.flattened ≠ [] := by
  obtain ⟨e, he, hne⟩ := List.any_eq_true.mp hany
  have hrec : e.2 ≠ [] := by simpa using hne
  obtain ⟨rec, hmem⟩ := List.exists_mem_of_ne_nil e.2 hrec
  unfold flattened
  refine List.ne_nil_of_mem (List.mem_flatMap.mpr ⟨e.1, ?_, ?_⟩) (a := rec)
  · exact (List.perm_insertionSort _ _).mem_iff.mpr (List.mem_map_of_mem he)
  · rw [h.get_eq he]
    exact hmem

end Archive

/-- The archive stays keyed. -/
def Refiles (s s' : ControlState) : Prop := s.archivedCompensations.Keyed → s'.archivedCompensations.Keyed

namespace Refiles
variable {s s' : ControlState}

theorem same (h : s'.archivedCompensations = s.archivedCompensations) : Refiles s s' := fun hk => h ▸ hk

theorem trans {s1 s2 s3 : ControlState} (h : Refiles s1 s2) (h' : Refiles s2 s3) : Refiles s1 s3 := fun hk => h' (h hk)

theorem removeToken (s : ControlState) (id : String) : Refiles s (s.removeToken id) := by
  obtain ⟨p, he, -⟩ := s.removeToken_shape id
  rw [he]
  exact same rfl

theorem cancelToken (s : ControlState) (tok : Token) (at_ : Time) (kind : CloseKind) :
    Refiles s (s.cancelToken tok at_ kind) := by
  rcases s.cancelToken_shape tok at_ kind with he | ⟨t, -, -, -, h, -, he⟩
  · rw [he]
    exact same rfl
  · rw [he]
    exact same rfl

theorem cancelListed (at_ : Time) (kind : CloseKind) (toks : List Token) (s : ControlState) :
    Refiles s (s.cancelListed at_ kind toks) := by
  induction toks generalizing s with
  | nil => exact same rfl
  | cons tok toks ih => exact (cancelToken s tok at_ kind).trans (ih _)

theorem closeScope (s : ControlState) (id : String) : Refiles s (s.closeScope id) := by
  obtain ⟨p, he⟩ := s.closeScope_shape id
  rw [he]
  exact same rfl

theorem archive (s : ControlState) (id : String) : Refiles s (s.archiveCompensations id) := by
  unfold ControlState.archiveCompensations
  split
  · exact same rfl
  · split
    · exact same rfl
    · intro hk
      change (s.archivedWith _ _).Keyed
      unfold archivedWith
      split
      · exact hk
      · exact hk.set _ _

theorem archiveAll (ids : List String) (s : ControlState) : Refiles s (s.archiveAll ids) := by
  induction ids generalizing s with
  | nil => exact same rfl
  | cons id ids ih => exact (archive s id).trans (ih _)

theorem consolidate (s : ControlState) : Refiles s s.consolidateArchiveIntoRoot := by
  unfold consolidateArchiveIntoRoot
  split
  · exact same rfl
  · exact fun _ => List.nodup_nil

theorem sweep (h : Sweep s s') : Refiles s s' := by
  cases h with
  | archive id => exact archive s id
  | cancel tok at_ kind => exact cancelToken s tok at_ kind
  | consolidate => exact consolidate s

theorem sweeps (h : Sweeps s s') : Refiles s s' := by
  induction h with
  | refl => exact same rfl
  | tail _ hstep ih => exact ih.trans (sweep hstep)

theorem dropArchiveWindow (key : String) (off : Int) (n : Nat) (s : ControlState) :
    Refiles s (Wrkflw.dropArchiveWindow key off n s) := by
  induction n generalizing s with
  | zero => exact same rfl
  | succ n ih =>
    have hdrop : Refiles s (s.dropArchiveRecordAt key (off + n)) := fun hk => hk.dropAt _ _
    exact hdrop.trans (ih _)

theorem mapRecords (s : ControlState) (scopeID : String) (f : List CompensationRecord → List CompensationRecord) :
    Refiles s (s.mapRecords scopeID f) := by
  unfold ControlState.mapRecords
  split
  · exact same rfl
  · exact same rfl

theorem clearing (plan : FinishPlan) (s : ControlState) : Refiles s (applyPlanRecordClearing plan s) := by
  unfold applyPlanRecordClearing
  split
  · exact same rfl
  · split
    · dsimp only
      split
      · exact mapRecords s _ _
      · exact (mapRecords s _ _).trans (dropArchiveWindow _ _ _ _)
    · exact mapRecords s _ _

theorem deleted (plan : FinishPlan) (s : ControlState) : Refiles s (applyDeleteArchive plan s) := by
  unfold applyDeleteArchive
  split
  · exact fun hk => hk.erase _
  · exact same rfl

theorem dispatch (s : ControlState) (cur : CompensationCursor) (idx : Int) (rec : CompensationRecord) (cmdID : String) :
    Refiles s (s.dispatch cur idx rec cmdID) := by
  have hdrop : Refiles { s with compensating := cur } ({ s with compensating := cur }.consumeDispatchedRecord idx) := by
    unfold consumeDispatchedRecord
    dsimp only
    split
    · exact same rfl
    · split
      · exact fun hk => hk.dropAt _ _
      · split
        · exact same rfl
        · exact fun hk => Archive.Keyed.dropAt hk _ _
  exact hdrop

theorem popOne (s : ControlState) : Refiles s s.popOneDeferredThrow := by
  unfold popOneDeferredThrow
  split
  · exact same rfl
  · dsimp only
    split
    · exact same rfl
    · exact same rfl

theorem resume (g : IDGenerator) (at_ : Time) (plan : FinishPlan) (s : ControlState) :
    Refiles s (resumeControl g at_ plan s) := by
  have hclear : Refiles s ({ applyPlanRecordClearing plan s with status := .running }.note
      (.resumed plan.popDeferred s.deferredCompensationThrows)) := clearing plan s
  refine hclear.trans ?_
  unfold resumeControl
  dsimp only
  generalize ({ applyPlanRecordClearing plan s with status := .running }.note
    (.resumed plan.popDeferred s.deferredCompensationThrows)) = s1
  have hplace : Refiles s1 (if resumeDropped plan s1 then s1
      else s1.placeTokenInScope g plan.resumeAt plan.resumeScope plan.resumeFlow at_) := by
    split
    · exact same rfl
    · exact same rfl
  split
  · exact hplace.trans (popOne _)
  · exact hplace

theorem takePending (plan : FinishPlan) (s : ControlState) : Refiles s (Wrkflw.takePending plan s) :=
  clearing plan { s with pendingCancel := false, pendingFinalStatus := .running, pendingFinalErr := "" }

theorem endControl (s : ControlState) (st : Status) (err : String) : Refiles s (s.endControl st err) :=
  archiveAll _ { s with status := st }

theorem parkedOn {p : ControlState} {node : Node} {scopeID : String} (h : ParkedOn s p node scopeID) : Refiles s p := by
  rcases h with rfl | ⟨tok, -, -, -, -, rfl⟩
  · exact same rfl
  · exact same rfl

end Refiles

section Moves
variable {top : ProcessDefinition} {g : IDGenerator} {trg : TriggerBody} {s s' : ControlState}

theorem Move.refiles (hmove : Move top g trg s s') : Refiles s s' := by
  cases hmove with
  | consume tok hmem hfree => exact Refiles.removeToken s tok.id
  | cancel tok at_ kind => exact Refiles.cancelToken s tok at_ kind
  | park p d node scopeID kind at_ hp hsite hkind hnone => exact Refiles.parkedOn hp
  | fireParallel p d node scopeID consumed hp hsite hmatch =>
    have hpark : Refiles s p := Refiles.parkedOn hp
    exact hpark
  | fireInclusive p d node scopeID consumed hp hsite htok hsub hcons =>
    have hpark : Refiles s p := Refiles.parkedOn hp
    exact hpark
  | teardown scope => exact (Refiles.archiveAll _ s).trans (Refiles.closeScope _ scope)
  | interrupt scope => exact Refiles.archiveAll (s.subtreeIDs scope) s
  | exit scope enclosing hne htok hchild hhold =>
    have hnote : Refiles s (s.note (.exited scope enclosing s.tokens s.scopes s.compensating)) := Refiles.same rfl
    exact (hnote.trans (Refiles.archive _ scope)).trans (Refiles.closeScope _ scope)
  | record scope rec hfwd hhist =>
    unfold recordCompensation
    split
    · exact Refiles.same rfl
    · split
      · exact Refiles.same rfl
      · exact Refiles.same rfl
  | sweep s' hidle hsweep => exact Refiles.sweep hsweep
  | throwWalk tok at_ cur rec hthrow hfwd hidle hcur =>
    obtain ⟨v, -, he⟩ := s.mintCommand.consumeTokenAs_shape tok at_ .normal
    have hcons : Refiles s { s.mintCommand.consumeToken tok at_ with status := .compensating } := by
      intro hk
      change (s.mintCommand.consumeTokenAs tok at_ .normal).archivedCompensations.Keyed
      rw [he]
      exact Refiles.removeToken s.mintCommand tok.id hk
    exact hcons.trans (Refiles.dispatch _ _ _ _ _)
  | next rec hflight hans hpos hto hrec => exact Refiles.dispatch s.mintCommand _ _ _ _
  | resume cur at_ hfin hres hpend hscope =>
    have hset : Refiles s s.settled := Refiles.same rfl
    exact (hset.trans (Refiles.deleted _ _)).trans (Refiles.resume g at_ _ _)
  | pendingWalk cur at_ p rec hfin hcons hpend hsweep hclear hrec =>
    have hset : Refiles s s.settled := Refiles.same rfl
    have hswept : Refiles s p :=
      ((hset.trans (Refiles.deleted _ _)).trans (Refiles.takePending _ _)).trans (Refiles.sweeps hsweep)
    exact hswept
  | _ => exact Refiles.same rfl

theorem End.refiles (hend : End trg s s') : Refiles s s' := by
  have hset : Refiles s s.settled := Refiles.same rfl
  cases hend with
  | complete hlive hdrained => exact Refiles.endControl s _ _
  | idle st err hlive hidle hst => exact Refiles.endControl s _ _
  | childFailed err hlive htok => exact Refiles.endControl (s.note (.childFailed err s.compensating)) _ _
  | forced outcome at_ err hlive htok =>
    have hnote : Refiles s (s.note (.forced outcome s.pendingCancel)) := Refiles.same rfl
    exact (hnote.trans (Refiles.cancelListed at_ .terminated s.tokens _)).trans (Refiles.endControl _ _ _)
  | terminate cur hfin hmode => exact (hset.trans (Refiles.mapRecords _ _ _)).trans (Refiles.endControl _ _ _)
  | abandon hflight hans hmode =>
    exact ((hset.trans (Refiles.mapRecords _ _ _)).trans (Refiles.endControl _ _ _)).trans (Refiles.mapRecords _ _ _)
  | pending cur p hfin hcons hpend hsweep hclear hnone =>
    exact (((hset.trans (Refiles.deleted _ _)).trans (Refiles.takePending _ _)).trans (Refiles.sweeps hsweep)).trans
      (Refiles.endControl _ _ _)

end Moves

/-- What is left to walk over is in the root's records once the archive has joined them. -/
theorem records_to_walk {s : ControlState} (hk : s.archivedCompensations.Keyed)
    (h : hasCompensationRecordsToWalk s = true) : s.consolidateArchiveIntoRoot.rootCompensations ≠ [] := by
  unfold hasCompensationRecordsToWalk at h
  rw [Bool.or_eq_true] at h
  unfold consolidateArchiveIntoRoot
  split
  · rename_i hempty
    rcases h with h | h
    · simpa using h
    · rw [List.isEmpty_iff.mp hempty] at h
      cases h
  · change List.insertionSort _ _ ≠ []
    intro hnil
    have hperm := List.perm_insertionSort CompensationRecord.le (s.rootCompensations ++ s.archivedCompensations.flattened)
    rw [hnil] at hperm
    obtain ⟨hroot, harch⟩ := List.append_eq_nil_iff.mp hperm.nil_eq.symm
    rcases h with h | h
    · rw [hroot] at h
      cases h
    · exact hk.flattened_ne_nil h harch

end Wrkflw
